import Connio.Lib.Transition

/-!
# Loops that are left and entered again

A loop works on a state round by round.  A round goes on, ends the loop with a code, or leaves it to wait; a loop that
waits is resumed, or its wait fails.

* `LoopOutcome`, `LoopPhase`, `Loop` — what a round does, where a loop stands, and the loop;
* `Loop.step` — the loop as a transition system;
* `Loop.Outline` — what holds in each phase; `Loop.run` — **PROVED**: an outline that each round keeps holds in every
  run.
-/

namespace Connio.Lib

variable {σ ρ ω ε : Type}

/-- What a round does. -/
inductive LoopOutcome (ε σ : Type) where
  | again (s : σ)
  | waits (s : σ)
  | ends (code : ε) (s : σ)

inductive LoopPhase (ε : Type) where
  | running
  | waiting
  | ended (code : ε)
  deriving DecidableEq, Repr

def LoopPhase.hasEnded : LoopPhase ε → Bool
  | .ended _ => true
  | .running | .waiting => false

/-- A loop and where it stands. -/
structure LoopState (ε σ : Type) where
  state : σ
  phase : LoopPhase ε

def LoopOutcome.standing : LoopOutcome ε σ → LoopState ε σ
  | .again s => ⟨s, .running⟩
  | .waits s => ⟨s, .waiting⟩
  | .ends code s => ⟨s, .ended code⟩

/-- A loop: one round, what it does when it is resumed, and the code of success. -/
structure Loop (σ ρ ω ε : Type) where
  round : σ → ρ → Option (LoopOutcome ε σ)
  resume : σ → ω → Option (LoopOutcome ε σ)
  ok : ε

inductive LoopAction (ρ ω ε : Type) where
  | round (r : ρ)
  | resume (w : ω)
  /-- the wait fails -/
  | fail (code : ε)

namespace Loop

/-- **What holds in each phase:** at the head of a round, while the loop waits, and when it has ended. -/
structure Outline (σ ε : Type) where
  running : σ → Prop
  waiting : σ → Prop
  ended : ε → σ → Prop

def Outline.Holds (I : Outline σ ε) (p : LoopState ε σ) : Prop :=
  match p.phase with
  | .running => I.running p.state
  | .waiting => I.waiting p.state
  | .ended code => I.ended code p.state

section Phases

variable {I : Outline σ ε} {p : LoopState ε σ}

theorem Outline.Holds.at_running (h : I.Holds p) (hp : p.phase = .running) : I.running p.state := by
  unfold Outline.Holds at h
  rw [hp] at h
  exact h

theorem Outline.Holds.at_waiting (h : I.Holds p) (hp : p.phase = .waiting) : I.waiting p.state := by
  unfold Outline.Holds at h
  rw [hp] at h
  exact h

theorem Outline.Holds.at_ended {code : ε} (h : I.Holds p) (hp : p.phase = .ended code) : I.ended code p.state := by
  unfold Outline.Holds at h
  rw [hp] at h
  exact h

end Phases

variable [DecidableEq ε] (l : Loop σ ρ ω ε)

/-- **One step;** `none` when it is not enabled. -/
def step (p : LoopState ε σ) : LoopAction ρ ω ε → Option (LoopState ε σ)
  | .round r => if p.phase = .running then (l.round p.state r).map LoopOutcome.standing else none
  | .resume w => if p.phase = .waiting then (l.resume p.state w).map LoopOutcome.standing else none
  | .fail code => if p.phase = .waiting ∧ code ≠ l.ok then some ⟨p.state, .ended code⟩ else none

/-- Each round and each entry keeps the outline. -/
structure Keeps (I : Outline σ ε) : Prop where
  round : ∀ s r o, I.running s → l.round s r = some o → I.Holds o.standing
  resume : ∀ s w o, I.waiting s → l.resume s w = some o → I.Holds o.standing
  fail : ∀ s code, I.waiting s → code ≠ l.ok → I.ended code s

variable {l} {p q : LoopState ε σ} {I : Outline σ ε}

theorem step_round {r : ρ} (h : l.step p (.round r) = some q) :
    p.phase = .running ∧ ∃ o, l.round p.state r = some o ∧ o.standing = q := by
  obtain ⟨hrunning, hmap⟩ := Option.ite_none_right_eq_some.mp h
  exact ⟨hrunning, Option.map_eq_some_iff.mp hmap⟩

/-- A step keeps the outline. -/
theorem Keeps.step (hkeeps : l.Keeps I) {a : LoopAction ρ ω ε} (hp : I.Holds p) (h : l.step p a = some q) :
    I.Holds q := by
  cases a with
  | round r =>
    obtain ⟨hrunning, o, ho, rfl⟩ := step_round h
    exact hkeeps.round _ _ _ (hp.at_running hrunning) ho
  | resume w =>
    obtain ⟨hwaiting, hmap⟩ := Option.ite_none_right_eq_some.mp h
    obtain ⟨o, ho, rfl⟩ := Option.map_eq_some_iff.mp hmap
    exact hkeeps.resume _ _ _ (hp.at_waiting hwaiting) ho
  | fail code =>
    obtain ⟨⟨hwaiting, hcode⟩, heq⟩ := Option.ite_none_right_eq_some.mp h
    cases heq
    exact hkeeps.fail _ _ (hp.at_waiting hwaiting) hcode

/-- **The outline rule (proved).** -/
theorem run (hkeeps : l.Keeps I) (h0 : I.Holds p) (hq : Reachable (enabled l.step) p q) : I.Holds q :=
  hq.invariant h0 fun _ _ _ hs _ hstep => hkeeps.step hs hstep

/-- A loop that has ended makes no step. -/
theorem step_not_ended {a : LoopAction ρ ω ε} (h : l.step p a = some q) (code : ε) : p.phase ≠ .ended code := by
  intro hp
  cases a with
  | round r =>
    have hrunning := (step_round h).1
    rw [hp] at hrunning
    cases hrunning
  | resume w =>
    have hwaiting := (Option.ite_none_right_eq_some.mp h).1
    rw [hp] at hwaiting
    cases hwaiting
  | fail code' =>
    have hwaiting := (Option.ite_none_right_eq_some.mp h).1.1
    rw [hp] at hwaiting
    cases hwaiting

theorem ended_stays {code : ε} (hp : p.phase = .ended code) (hq : Reachable (enabled l.step) p q) : q = p := by
  refine hq.invariant (P := fun t => t = p) rfl fun s a s' hs _ hstep => ?_
  subst hs
  exact absurd hp (step_not_ended hstep code)

end Loop

end Connio.Lib
