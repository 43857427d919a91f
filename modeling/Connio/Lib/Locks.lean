import Mathlib.Data.List.Basic
import Mathlib.Logic.Relation

/-!
# Exclusive locks

A table `lock : ρ → Option τ` says who has each lock, and `held : τ → Option ρ` which lock a thread has; a thread has at
most one of the table.

* `Owned lock held` — the two agree;
* `Owned.keep`, `Owned.take`, `Owned.give` — a thread goes on, takes a lock that is free, and gives its lock back;
* `acyclic_of_rank` — a relation along which a rank decreases has no cycle.
-/

namespace Connio.Lib

variable {ρ τ α : Type}

/-- The table and the threads agree on who has which lock. -/
def Owned (lock : ρ → Option τ) (held : τ → Option ρ) : Prop := ∀ r t, lock r = some t ↔ held t = some r

namespace Owned

variable {lock : ρ → Option τ} {held : τ → Option ρ}

/-- A lock that is free is with nobody. -/
theorem free (h : Owned lock held) {r : ρ} (hr : lock r = none) (t : τ) : held t ≠ some r := by
  intro ht
  rw [(h r t).mpr ht] at hr
  cases hr

/-- A thread goes on with what it has. -/
theorem keep [DecidableEq τ] (h : Owned lock held) {t : τ} {x : Option ρ} (ht : held t = x) :
    Owned lock fun u => if u = t then x else held u := by
  intro r u
  show lock r = some u ↔ (if u = t then x else held u) = some r
  by_cases hu : u = t
  · rw [if_pos hu, h r u, hu, ht]
  · rw [if_neg hu, h r u]

/-- A thread takes a lock that is free. -/
theorem take [DecidableEq ρ] [DecidableEq τ] (h : Owned lock held) {r : ρ} {t : τ} (hr : lock r = none)
    (ht : held t = none) :
    Owned (fun r' => if r' = r then some t else lock r') fun u => if u = t then some r else held u := by
  intro r' u
  by_cases hr' : r' = r
  · by_cases hu : u = t
    · simp [hr', hu]
    · have hnot := h.free hr u
      simp [hr', hu, hnot, Ne.symm hu]
  · by_cases hu : u = t
    · have hnot : lock r' ≠ some t := by
        intro hl
        rw [(h r' t).mp hl] at ht
        cases ht
      simp [hr', hu, hnot, Ne.symm hr']
    · simp only [if_neg hr', if_neg hu]
      exact h r' u

/-- A thread gives its lock back. -/
theorem give [DecidableEq ρ] [DecidableEq τ] (h : Owned lock held) {r : ρ} {t : τ} (ht : held t = some r) :
    Owned (fun r' => if r' = r then none else lock r') fun u => if u = t then none else held u := by
  intro r' u
  by_cases hr' : r' = r
  · by_cases hu : u = t
    · simp [hr', hu]
    · have hnot : held u ≠ some r := by
        intro hl
        have hhas := (h r t).mpr ht
        rw [(h r u).mpr hl] at hhas
        exact hu (Option.some.inj hhas)
      simp [hr', hu, hnot]
  · by_cases hu : u = t
    · have hnot : lock r' ≠ some t := by
        intro hl
        have hhas := (h r' t).mp hl
        rw [ht] at hhas
        exact hr' (Option.some.inj hhas).symm
      simp [hr', hu, hnot]
    · simp only [if_neg hr', if_neg hu]
      exact h r' u

end Owned

/-- **A relation along which a rank decreases has no cycle.** -/
theorem acyclic_of_rank {r : α → α → Prop} (rank : α → ℕ) (h : ∀ x y, r x y → rank y < rank x) (x : α) :
    ¬ Relation.TransGen r x x := by
  have hlt : ∀ y, Relation.TransGen r x y → rank y < rank x := by
    intro y hy
    induction hy with
    | single hxy => exact h x _ hxy
    | tail _ hyz ih => exact Nat.lt_trans (h _ _ hyz) ih
  exact fun hx => Nat.lt_irrefl _ (hlt x hx)

end Connio.Lib
