import Mathlib.Data.List.Basic

/-!
# Labelled transition systems

A system is a relation `step : σ → α → σ → Prop`; the label says who moves and what the environment
answers.  An executable system is a partial function `σ → α → Option σ`, read as the relation
`enabled f`.  This file provides

* `runFrom` — the executable run of a list of labels, on which concrete runs are evaluated;
* `ReachableVia step ok init s` — `s` is reached from `init` by steps that all meet `ok`;
  `Reachable` is the unconditional case;
* `ReachableVia.invariant` — the induction rule: what holds of `init` and is kept by one step that
  meets `ok` holds of every state reached;
* `ReachableVia.simulate` — the simulation rule: when each step of one system is matched by steps of
  another one between the abstracted states, reachability carries over;
* `ReachableVia.simulateRel` — the same for states that a relation connects;
* `ReachableVia.of_rank` — the ranking rule: where every state of a rank has a step that lowers it, or has
  arrived, some run arrives;
* `reachable_of_runFrom`, `reachableVia_of_runFrom` — an evaluated run reaches its last state.
-/

namespace Connio.Lib

variable {σ τ α β : Type}

/-- The relation of an executable step. -/
def enabled (f : σ → α → Option σ) : σ → α → σ → Prop := fun s a s' => f s a = some s'

/-- Run a list of labels from `s`; `none` as soon as one label is not enabled. -/
def runFrom (f : σ → α → Option σ) : σ → List α → Option σ
  | s, [] => some s
  | s, a :: as => (f s a).bind fun s' => runFrom f s' as

/-- The states reached from `init` by steps that all meet `ok`. -/
inductive ReachableVia (step : σ → α → σ → Prop) (ok : σ → α → Prop) (init : σ) : σ → Prop
  | init : ReachableVia step ok init init
  | next {s s' : σ} {a : α} :
      ReachableVia step ok init s → ok s a → step s a s' → ReachableVia step ok init s'

/-- The states reached from `init` by any steps. -/
abbrev Reachable (step : σ → α → σ → Prop) (init : σ) : σ → Prop :=
  ReachableVia step (fun _ _ => True) init

variable {step : σ → α → σ → Prop} {ok : σ → α → Prop} {init : σ}

namespace ReachableVia

/-- **The invariant rule.**  What holds initially and is kept by every step that meets `ok` holds of
every state reached by such steps. -/
theorem invariant {P : σ → Prop} (h0 : P init)
    (hstep : ∀ s a s', P s → ok s a → step s a s' → P s') {s : σ}
    (hs : ReachableVia step ok init s) : P s := by
  induction hs with
  | init => exact h0
  | next _ hok h ih => exact hstep _ _ _ ih hok h

theorem single {s s' : σ} {a : α} (hok : ok s a) (h : step s a s') : ReachableVia step ok s s' :=
  .next .init hok h

theorem trans {s t : σ} (hs : ReachableVia step ok init s) (ht : ReachableVia step ok s t) :
    ReachableVia step ok init t := by
  induction ht with
  | init => exact hs
  | next _ hok h ih => exact .next ih hok h

theorem weaken {ok' : σ → α → Prop} (himp : ∀ s a, ok s a → ok' s a) {s : σ}
    (hs : ReachableVia step ok init s) : ReachableVia step ok' init s := by
  induction hs with
  | init => exact .init
  | next _ hok h ih => exact .next ih (himp _ _ hok) h

theorem reachable {s : σ} (hs : ReachableVia step ok init s) : Reachable step init s :=
  hs.weaken fun _ _ _ => trivial

/-- **The simulation rule.**  `I` is an invariant of the concrete system; each of its steps that meets
`ok` is matched by abstract steps that all meet `ok'`. -/
theorem simulate {astep : τ → β → τ → Prop} {aok : τ → β → Prop} (abs : σ → τ) {I : σ → Prop}
    (hI : ∀ s, ReachableVia step ok init s → I s)
    (hstep : ∀ s a s', I s → ok s a → step s a s' → ReachableVia astep aok (abs s) (abs s')) {s : σ}
    (hs : ReachableVia step ok init s) : ReachableVia astep aok (abs init) (abs s) := by
  induction hs with
  | init => exact .init
  | next hprev hok h ih => exact ih.trans (hstep _ _ _ (hI _ hprev) hok h)

/-- **The simulation rule for a relation.**  Each step that meets `ok` is matched by abstract steps from every related
state. -/
theorem simulateRel {astep : τ → β → τ → Prop} {aok : τ → β → Prop} {R : σ → τ → Prop}
    (hstep : ∀ s a s' t, R s t → ok s a → step s a s' → ∃ t', ReachableVia astep aok t t' ∧ R s' t') {s : σ} {t : τ}
    (hinit : R init t) (hs : ReachableVia step ok init s) : ∃ t', ReachableVia astep aok t t' ∧ R s t' := by
  induction hs with
  | init => exact ⟨t, .init, hinit⟩
  | next _ hok h ih =>
    obtain ⟨t₁, hrun, hrel⟩ := ih
    obtain ⟨t₂, hmore, hrel'⟩ := hstep _ _ _ t₁ hrel hok h
    exact ⟨t₂, hrun.trans hmore, hrel'⟩

/-- **The ranking rule.**  `R n s` says that `s` is at most `n` steps from `Q`: it has a step that meets `ok` to a state
where `Q` holds, or to one of a lower rank. -/
theorem of_rank {Q : σ → Prop} {R : ℕ → σ → Prop}
    (hstep : ∀ n s, R n s → ∃ a s', ok s a ∧ step s a s' ∧ (Q s' ∨ ∃ m < n, R m s')) :
    ∀ (n : ℕ) {s : σ}, R n s → ∃ t, ReachableVia step ok s t ∧ Q t := by
  intro n
  induction n using Nat.strongRecOn with
  | ind n ih =>
    intro s hs
    obtain ⟨a, s', hok, h, hnext⟩ := hstep n s hs
    rcases hnext with hQ | ⟨m, hm, hR⟩
    · exact ⟨s', .single hok h, hQ⟩
    · obtain ⟨t, ht, hQ⟩ := ih m hm hR
      exact ⟨t, (ReachableVia.single hok h).trans ht, hQ⟩

end ReachableVia

/-- An evaluated run reaches the state it ends in. -/
theorem reachable_of_runFrom {f : σ → α → Option σ} {as : List α} : ∀ {s s' : σ},
    runFrom f s as = some s' → Reachable (enabled f) s s' := by
  induction as with
  | nil =>
    intro s s' h
    cases h
    exact .init
  | cons a as ih =>
    intro s s' h
    obtain ⟨t, hstep, hrest⟩ := Option.bind_eq_some_iff.mp h
    exact (ReachableVia.single trivial hstep).trans (ih hrest)

/-- An evaluated run of labels that meet `ok` in every state. -/
theorem reachableVia_of_forall {f : σ → α → Option σ} {as : List α} (ok : σ → α → Prop) (hok : ∀ a ∈ as, ∀ s, ok s a) :
    ∀ {s s' : σ}, runFrom f s as = some s' → ReachableVia (enabled f) ok s s' := by
  induction as with
  | nil =>
    intro s s' h
    cases h
    exact .init
  | cons a as ih =>
    intro s s' h
    obtain ⟨t, hstep, hrest⟩ := Option.bind_eq_some_iff.mp h
    exact (ReachableVia.single (hok a List.mem_cons_self s) hstep).trans
      (ih (fun b hb => hok b (List.mem_cons_of_mem _ hb)) hrest)

/-- The executable steps that meet `ok`. -/
def guarded (ok : σ → α → Prop) [∀ s a, Decidable (ok s a)] (f : σ → α → Option σ) (s : σ) (a : α) :
    Option σ :=
  if ok s a then f s a else none

/-- An evaluated run of steps that meet `ok` reaches the state it ends in. -/
theorem reachableVia_of_runFrom {ok : σ → α → Prop} [∀ s a, Decidable (ok s a)]
    {f : σ → α → Option σ} {as : List α} : ∀ {s s' : σ},
    runFrom (guarded ok f) s as = some s' → ReachableVia (enabled f) ok s s' := by
  induction as with
  | nil =>
    intro s s' h
    cases h
    exact .init
  | cons a as ih =>
    intro s s' h
    obtain ⟨t, hstep, hrest⟩ := Option.bind_eq_some_iff.mp h
    unfold guarded at hstep
    split at hstep
    next hok => exact (ReachableVia.single hok hstep).trans (ih hrest)
    · cases hstep

end Connio.Lib
