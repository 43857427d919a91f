import Connio.Lib.Transition

/-!
# What every run arrives at

A goal is inevitable from a state when every run from there that goes on for as long as it can arrives at it: the
state has a step, and whichever is made, the goal is inevitable from the next state.

* `Inevitably` — the least such predicate;
* `Inevitably.of_rank` — **PROVED**: an invariant whose steps lower a rank, with a step as long as the goal does not
  hold, makes the goal inevitable;
* `Inevitably.reaches` — **PROVED**: an inevitable goal holds in some state reached.
-/

namespace Connio.Lib

variable {σ α : Type}

/-- **Every run arrives at the goal,** and none is stuck before. -/
inductive Inevitably (step : σ → α → σ → Prop) (goal : σ → Prop) : σ → Prop
  | now {s : σ} : goal s → Inevitably step goal s
  | next {s : σ} : (∃ a t, step s a t) → (∀ a t, step s a t → Inevitably step goal t) → Inevitably step goal s

namespace Inevitably

variable {step : σ → α → σ → Prop} {goal : σ → Prop} {s : σ}

/-- **The ranking rule for every run (proved).** -/
theorem of_rank {I : σ → Prop} (rank : σ → ℕ)
    (hstep : ∀ s, I s → goal s ∨ (∃ a t, step s a t) ∧ ∀ a t, step s a t → I t ∧ rank t < rank s) :
    ∀ {s : σ}, I s → Inevitably step goal s := by
  intro s
  generalize hn : rank s = n
  induction n using Nat.strongRecOn generalizing s with
  | ind n ih =>
    intro hs
    rcases hstep s hs with hgoal | ⟨hmoves, hall⟩
    · exact .now hgoal
    · refine .next hmoves fun a t h => ?_
      obtain ⟨hkept, hlower⟩ := hall a t h
      exact ih (rank t) (hn ▸ hlower) rfl hkept

theorem weaken {goal' : σ → Prop} (h : Inevitably step goal s) (himp : ∀ t, goal t → goal' t) :
    Inevitably step goal' s := by
  induction h with
  | now hgoal => exact .now (himp _ hgoal)
  | next hmoves _ ih => exact .next hmoves ih

/-- An inevitable goal is reached. -/
theorem reaches (h : Inevitably step goal s) : ∃ t, Reachable step s t ∧ goal t := by
  induction h with
  | now hgoal => exact ⟨_, .init, hgoal⟩
  | next hmoves _ ih =>
    obtain ⟨a, t, hstep⟩ := hmoves
    obtain ⟨u, hu, hgoal⟩ := ih a t hstep
    exact ⟨u, (ReachableVia.single trivial hstep).trans hu, hgoal⟩

end Inevitably

end Connio.Lib
