import Connio.ListenerBook

/-!
# Independent listeners

A listener that `ConnAAddIndependentListenerEx` has returned is not meant by a call with NULL for its listener
(`connio.h`): such a call skips the records with `CONN_LISTENER_INDEPENDENT`.

* `BookAction.Touches` — a call with NULL starts, stops, suspends, resumes, expires, removes or counts a listener;
* `IndependentAlone` — independent listeners have the flag, and no such call touches them;
* `IndependentKept` — a step that keeps the flag;
* `independent_step` — **PROVED**: the step lemma;
* `reachable_independent` — **PROVED**: independent listeners are alone as long as the flag is kept;
* `independent_fails` — **PROVED**: a listener that is removed while it has a conn is no longer independent.
-/

namespace Connio

open Connio.Lib

/-! ### Calls with NULL -/

/-- The record that `ConnAStartListenerEx` with NULL works on. -/
def RecordThread.unnamed : RecordThread → Option ℕ
  | listening none _ l | submitted none _ l _ | stored none _ l => some l
  | _ => none

/-- **A call with NULL starts, stops, suspends, resumes, expires, removes or counts `l`.** -/
def BookAction.Touches (s : ListenerBook) (l : ℕ) : BookAction → Prop
  | .records (.stop which none) | .records (.remove which none _) | .records (.status which none _) =>
    l ∈ s.managed.list ∧ s.managed.selected which none l = true
  | .records (.lock none which) => s.managed.pick none which (s.managed.candidates none) = some l
  | .records (.listen none _ l' _) | .records (.store none _ l' _) => l' = l
  | .records (.relock none which l') =>
    l' = l ∨ (s.managed.settle l').pick none which (s.managed.rest none l') = some l
  | .suspend none => s.managed.inState connListenerActive none l = true
  | .resume none => s.managed.inState connListenerSuspended none l = true
  | .expire none => s.managed.unexpired none l = true
  | _ => False

/-- **Independent listeners are managed on their own.** -/
def IndependentAlone (s : ListenerBook) : Prop :=
  ∀ l ∈ s.independent, l ∈ s.managed.list →
    (s.managed.record l).has connListenerIndependent = true ∧ ∀ a, bookStep s a ≠ none → ¬ a.Touches s l

/-- **The flag is kept:** an independent listener is removed when it has no conn, it is not restarted with another
address, and no call with NULL is about it when it gets the flag. -/
def IndependentKept (s : ListenerBook) : BookAction → Prop
  | .records (.remove which only _) =>
    ∀ l ∈ s.independent, l ∈ s.managed.list → s.managed.selected which only l = true → (s.managed.record l).conn = none
  | .move l sa => l ∈ s.independent → s.managed.closing = true ∨ (s.args l).sa = sa
  | .mark l => ∀ t ∈ s.managed.threads, t.unnamed ≠ some l
  | _ => True

instance (s : ListenerBook) (a : BookAction) : Decidable (IndependentKept s a) := by
  unfold IndependentKept
  split <;> infer_instance

/-- **The invariant of independent listeners.** -/
structure IndependentInv (s : ListenerBook) : Prop where
  bounded : BookBounded s
  flag : ∀ l ∈ s.independent, l ∈ s.managed.list → (s.managed.record l).has connListenerIndependent = true
  alone : ∀ l ∈ s.independent, l ∈ s.managed.list → ∀ t ∈ s.managed.threads, t.unnamed ≠ some l

section Alone

variable {s s' : ListenerBook} {l : ℕ}

theorem pick_none_independent {m : ManagedListeners} {which : ℕ} {from_ : List ℕ}
    (hpick : m.pick none which from_ = some l) : (m.record l).has connListenerIndependent = false := by
  have hsome := List.find?_some hpick
  simp only [Option.isNone_none, Bool.true_and, Bool.and_eq_true, Bool.not_eq_eq_eq_not, Bool.not_true] at hsome
  exact hsome.1.1

theorem mem_scan {m : ManagedListeners} {only : Option ℕ} {which : ℕ} {from_ : List ℕ} {t : RecordThread}
    (ht : t ∈ m.scan only which from_) : ∃ l, m.pick only which from_ = some l ∧ t = .listening only which l := by
  obtain ⟨l, hl, heq⟩ := List.mem_map.mp ht
  exact ⟨l, Option.mem_toList.mp hl, heq.symm⟩

/-- **What the invariant says about the calls with NULL (proved).** -/
theorem IndependentInv.independentAlone (h : IndependentInv s) : IndependentAlone s := by
  intro l hl hlist
  have hflag := h.flag l hl hlist
  have hgoes : ∀ (a : RecordAction), bookStep s (.records a) ≠ none → (∀ t ∈ a.goesOn, t ∈ s.managed.threads) := by
    intro a hne
    obtain ⟨s', hs⟩ := Option.ne_none_iff_exists'.mp hne
    by_cases ha : ∃ which only cllist, a = .remove which only cllist
    · obtain ⟨_, _, _, rfl⟩ := ha
      exact fun t ht => by cases ht
    · obtain ⟨m, _, hm⟩ := bookMove_records (bookMove_of_step hs)
        fun which only cllist heq => ha ⟨which, only, cllist, heq⟩
      exact hm.goesOn
  refine ⟨hflag, fun a hne htouch => ?_⟩
  unfold BookAction.Touches at htouch
  split at htouch
  · simp [ManagedListeners.selected, hflag] at htouch
  · simp [ManagedListeners.selected, hflag] at htouch
  · simp [ManagedListeners.selected, hflag] at htouch
  · rw [pick_none_independent htouch] at hflag
    cases hflag
  next which l' ok =>
    exact h.alone l hl hlist _ (hgoes _ hne _ rfl) (congrArg some htouch)
  next which l' c =>
    exact h.alone l hl hlist _ (hgoes _ hne _ rfl) (congrArg some htouch)
  next which l' =>
    rcases htouch with heq | hpick
    · exact h.alone l hl hlist _ (hgoes _ hne _ rfl) (congrArg some heq)
    · have hsame := (settle_sameFlag s.managed l' l).independent hflag
      rw [pick_none_independent hpick] at hsame
      cases hsame
  · simp [ManagedListeners.inState, hflag] at htouch
  · simp [ManagedListeners.inState, hflag] at htouch
  · simp [ManagedListeners.unexpired, hflag] at htouch
  · exact htouch

/-- A new thread is not about an independent listener. -/
theorem spawned_unnamed {a : RecordAction} {m : ManagedListeners} (hm : RecordsMoved s.managed m a)
    (hflag : (s.managed.record l).has connListenerIndependent = true)
    (halone : ∀ t ∈ s.managed.threads, t.unnamed ≠ some l) : ∀ t ∈ a.spawned s.managed, t.unnamed ≠ some l := by
  intro t ht
  cases a with
  | start only which =>
    rw [List.mem_singleton.mp ht]
    exact fun heq => by cases heq
  | lock only which =>
    obtain ⟨l', hpick, rfl⟩ := mem_scan ht
    cases only with
    | some _ => exact fun heq => by cases heq
    | none =>
      intro heq
      cases heq
      rw [pick_none_independent hpick] at hflag
      cases hflag
  | listen only which l' ok =>
    rw [List.mem_singleton.mp ht]
    cases only with
    | some _ => exact fun heq => by cases heq
    | none => exact halone (.listening none which l') (hm.goesOn _ rfl)
  | store only which l' c =>
    rw [List.mem_singleton.mp ht]
    cases only with
    | some _ => exact fun heq => by cases heq
    | none => exact halone (.submitted none which l' c) (hm.goesOn _ rfl)
  | relock only which l' =>
    obtain ⟨l'', hpick, rfl⟩ := mem_scan ht
    cases only with
    | some _ => exact fun heq => by cases heq
    | none =>
      intro heq
      cases heq
      have hsame := (settle_sameFlag s.managed l' l).independent hflag
      rw [pick_none_independent hpick] at hsame
      cases hsame
  | callback c =>
    rw [List.mem_singleton.mp ht]
    exact fun heq => by cases heq
  | free c l' =>
    obtain ⟨l'', _, rfl⟩ := List.mem_map.mp ht
    exact fun heq => by cases heq
  | clear c l' =>
    simp only [RecordAction.spawned] at ht
    split at ht
    · rw [List.mem_singleton.mp ht]
      exact fun heq => by cases heq
    · cases ht
  | stop _ _ | remove _ _ _ | status _ _ _ | restart _ | close => cases ht

/-- The states of some listeners are set, and the flags kept. -/
theorem IndependentInv.setStates (h : IndependentInv s) {selected : List ℕ}
    {f : ConnListenerPriv → ConnListenerPriv} (hf : ∀ r : ConnListenerPriv,
      r.has connListenerIndependent = true → (f r).has connListenerIndependent = true)
    (hb : BookBounded { s with managed := s.managed.setStates selected f }) :
    IndependentInv { s with managed := s.managed.setStates selected f } := by
  refine ⟨hb, fun l hl hlist => ?_, h.alone⟩
  change (if l ∈ selected then f (s.managed.record l) else s.managed.record l).has _ = true
  split
  · exact hf _ (h.flag l hl hlist)
  · exact h.flag l hl hlist

/-- One record is set, and its flag kept. -/
theorem setRecord_flag {m : ManagedListeners} {l' : ℕ} {r : ConnListenerPriv}
    (hr : (m.record l').has connListenerIndependent = true → r.has connListenerIndependent = true)
    (hflag : (m.record l).has connListenerIndependent = true) :
    ((m.setRecord l' r).record l).has connListenerIndependent = true := by
  change (if l = l' then r else m.record l).has _ = true
  split
  next heq =>
    rw [heq] at hflag
    exact hr hflag
  · exact hflag

theorem setState_flag {r : ConnListenerPriv} (state : ℕ) (h : r.has connListenerIndependent = true) :
    (r.setState state).has connListenerIndependent = true :=
  SameFlag.independent (Or.inr ⟨state, rfl⟩) h

/-- **The step lemma (proved).** -/
theorem independent_step {a : BookAction} (h : IndependentInv s) (hok : IndependentKept s a)
    (hs : bookStep s a = some s') : IndependentInv s' := by
  have hb := bookStep_bounded h.bounded hs
  have hs := bookMove_of_step hs
  cases a with
  | records a =>
    by_cases ha : ∃ which only cllist, a = .remove which only cllist
    · obtain ⟨which, only, cllist, rfl⟩ := ha
      cases hs
      have hkept : ∀ l ∈ s.independent, l ∈ (s.managed.remove which only cllist).list →
          l ∈ s.managed.list ∧ s.managed.selected which only l = false := by
        intro l hl hlist
        obtain ⟨hin, hused⟩ := List.mem_filter.mp hlist
        refine ⟨hin, ?_⟩
        by_contra hselected
        have hselected' : s.managed.selected which only l = true := by simpa using hselected
        simp [ManagedListeners.unused, hselected', hok l hl hin hselected'] at hused
      refine ⟨hb, fun l hl hlist => ?_, fun l hl hlist => h.alone l hl (hkept l hl hlist).1⟩
      obtain ⟨hin, hselected⟩ := hkept l hl hlist
      change (if l ∈ s.managed.list ∧ s.managed.selected which only l then _ else s.managed.record l).has _ = true
      rw [if_neg (by simp [hselected])]
      exact h.flag l hl hin
    · obtain ⟨m, rfl, hm⟩ := bookMove_records hs fun which only cllist heq => ha ⟨which, only, cllist, heq⟩
      refine ⟨hb, fun l hl hlist => (hm.flag l).independent (h.flag l hl (hm.list l hlist)), fun l hl hlist t ht => ?_⟩
      have hin := hm.list l hlist
      rcases hm.threads t ht with ht | ht
      · exact h.alone l hl hin t ht
      · exact spawned_unnamed hm (h.flag l hl hin) (h.alone l hl hin) t ht
  | shutdown =>
    cases hs
    exact ⟨hb, h.flag, h.alone⟩
  | suspend only =>
    cases hs
    exact h.setStates (fun r hr => setState_flag _ hr) hb
  | resume only =>
    cases hs
    exact h.setStates (fun r hr => setState_flag _ hr) hb
  | expire only =>
    cases hs
    exact h.setStates (fun _ hr => expire_independent.trans hr) hb
  | add args independent =>
    cases hs
    split
    · exact h
    next hopen =>
      rw [if_neg hopen] at hb
      unfold ListenerBook.add at hb ⊢
      split
      next l' hfound =>
        rw [hfound] at hb
        exact ⟨hb, fun l hl hlist => setRecord_flag unexpire_independent.trans (h.flag l hl hlist), h.alone⟩
      next hfound =>
        rw [hfound] at hb
        exact ⟨hb, h.flag, h.alone⟩
  | link args independent memory =>
    simp only [bookMove] at hs
    split at hs
    · split at hs
      · cases hs
        have hold : ∀ l ∈ s.independent, l ∈ s.managed.list ++ [s.added] → l ≠ s.added ∧ l ∈ s.managed.list := by
          intro l hl hlist
          have hne : l ≠ s.added := Nat.ne_of_lt (h.bounded.independent l hl)
          rcases List.mem_append.mp hlist with hin | hin
          · exact ⟨hne, hin⟩
          · exact absurd (List.mem_singleton.mp hin) hne
        refine ⟨hb, fun l hl hlist => ?_, fun l hl hlist => h.alone l hl (hold l hl hlist).2⟩
        obtain ⟨hne, hin⟩ := hold l hl hlist
        change (if l = s.added then _ else s.managed.record l).has _ = true
        rw [if_neg hne]
        exact h.flag l hl hin
      · cases hs
        exact ⟨hb, h.flag, h.alone⟩
    · cases hs
  | mark l' =>
    simp only [bookMove] at hs
    split at hs
    · cases hs
      refine ⟨hb, fun l hl hlist => ?_, fun l hl hlist => ?_⟩
      · change (if l = l' then _ else s.managed.record l).has _ = true
        split
        · unfold ConnListenerPriv.has
          exact decide_eq_true (or_has (by decide))
        next hne =>
          rcases List.mem_cons.mp hl with rfl | hl
          · exact absurd rfl hne
          · exact h.flag l hl hlist
      · rcases List.mem_cons.mp hl with rfl | hl
        · exact hok
        · exact h.alone l hl hlist
    · cases hs
  | move l' sa =>
    simp only [bookMove] at hs
    split at hs
    · split at hs
      · cases hs
        exact h
      next hopen =>
        split at hs
        · split at hs
          · cases hs
            exact h
          · cases hs
            exact ⟨hb, h.flag, h.alone⟩
        next haddr =>
          cases hs
          have hne : ∀ l ∈ s.independent, l ≠ l' := by
            rintro l hl rfl
            rcases hok hl with hclosing | hsame
            · exact hopen hclosing
            · exact haddr hsame
          refine ⟨hb, fun l hl hlist => ?_, h.alone⟩
          change (if l = l' then _ else s.managed.record l).has _ = true
          rw [if_neg (hne l hl)]
          exact h.flag l hl hlist
    · cases hs
  | moved l' c memory =>
    simp only [bookMove] at hs
    split at hs
    · split at hs
      · cases hs
        exact ⟨hb, h.flag, h.alone⟩
      · cases hs
        exact ⟨hb, fun l hl hlist => setRecord_flag (r := { s.managed.record l' with conn := c }) (fun hr => hr)
          (h.flag l hl hlist), h.alone⟩
    · cases hs

end Alone

/-- **Independent listeners are alone (proved)** in every run whose steps keep the flag. -/
theorem reachable_independent {s : ListenerBook} (h : ReachableVia (enabled bookStep) IndependentKept .new s) :
    IndependentAlone s := by
  have hinv : IndependentInv s := h.invariant (P := IndependentInv)
    ⟨bookBounded_new, fun _ hl => (by cases hl), fun _ hl => (by cases hl)⟩
    fun _ _ _ hi hok hs => independent_step hi hok hs
  exact hinv.independentAlone

/-- A listener becomes independent, is started on its own, and is left alone by a call that stops all listeners. -/
theorem reachable_independent_started : ∃ s : ListenerBook, IndependentAlone s ∧ s.independent = [0] ∧
    (s.managed.record 0).conn = some 0 := by
  have hrun : ∃ s, runFrom (guarded IndependentKept bookStep) .new
      [.add ⟨[], 1, 1, none⟩ true, .link ⟨[], 1, 1, none⟩ true true, .mark 0, .records (.start (some 0) 0),
        .records (.lock (some 0) 15), .records (.listen (some 0) 15 0 true), .records (.store (some 0) 15 0 (some 0)),
        .records (.relock (some 0) 15 0), .records (.stop 0 none), .suspend none, .expire none] = some s ∧
      s.independent = [0] ∧ (s.managed.record 0).conn = some 0 := ⟨_, rfl, rfl, rfl⟩
  obtain ⟨s, hs, hobs⟩ := hrun
  exact ⟨s, reachable_independent (reachableVia_of_runFrom hs), hobs⟩

/-- **An independent listener is counted with the others (proved):** it has been removed while it had a conn. -/
theorem independent_fails : ¬ ∀ s : ListenerBook, Reachable (enabled bookStep) .new s → IndependentAlone s := by
  intro hall
  have hrun : ∃ s, runFrom bookStep .new
      [.add ⟨[], 1, 1, none⟩ true, .link ⟨[], 1, 1, none⟩ true true, .mark 0, .records (.start (some 0) 0),
        .records (.lock (some 0) 15), .records (.listen (some 0) 15 0 true), .records (.store (some 0) 15 0 (some 0)),
        .records (.relock (some 0) 15 0), .records (.remove 0 (some 0) false)] = some s ∧
      s.independent = [0] ∧ s.managed.list = [0] ∧ (s.managed.record 0).has connListenerIndependent = false :=
    ⟨_, rfl, rfl, rfl, rfl⟩
  obtain ⟨s, hs, hindependent, hlist, hflag⟩ := hrun
  have halone := hall s (reachable_of_runFrom hs) 0 (by rw [hindependent]; decide) (by rw [hlist]; decide)
  rw [hflag] at halone
  exact absurd halone.1 (by decide)

end Connio
