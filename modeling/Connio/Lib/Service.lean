import Connio.Lib.Transition

/-!
# A service with one request at a time

A service accepts a request, finishes it, and reports a result for it; only then does it accept the next one.

* `Service`, `serviceStep` — the request it has, with what has been accepted and reported, and one step;
* `Service.Books` — **PROVED** in every run: what has been accepted is what has been reported, in this order, followed by
  the request it has;
* `Service.Shows` — the service whose requests are numbered from 1, as another system shows it; one rule for each step.
-/

namespace Connio.Lib

variable {α ε : Type}

structure Service (α ε : Type) where
  /-- the request that has not been reported, and whether it is finished -/
  current : Option (α × Bool) := none
  accepted : List α := []
  reported : List (α × ε) := []

inductive ServiceAction (α ε : Type) where
  | accept (a : α)
  | finish
  | report (e : ε)

/-- **One step;** `none` when it is not enabled. -/
def serviceStep (s : Service α ε) : ServiceAction α ε → Option (Service α ε)
  | .accept a =>
    match s.current with
    | none => some { s with current := some (a, false), accepted := s.accepted ++ [a] }
    | some _ => none
  | .finish =>
    match s.current with
    | some (a, false) => some { s with current := some (a, true) }
    | _ => none
  | .report e =>
    match s.current with
    | some (a, true) => some { s with current := none, reported := s.reported ++ [(a, e)] }
    | _ => none

/-- **Each request is reported once, in the order in which they have been accepted.** -/
def Service.Books (s : Service α ε) : Prop :=
  s.reported.map Prod.fst ++ (s.current.map Prod.fst).toList = s.accepted

variable {s t : Service α ε} {a : α} {e : ε}

theorem serviceStep_accept (h : s.current = none) :
    serviceStep s (.accept a) = some { s with current := some (a, false), accepted := s.accepted ++ [a] } := by
  simp only [serviceStep, h]

theorem serviceStep_finish (h : s.current = some (a, false)) :
    serviceStep s .finish = some { s with current := some (a, true) } := by
  simp only [serviceStep, h]

theorem serviceStep_report (h : s.current = some (a, true)) :
    serviceStep s (.report e) = some { s with current := none, reported := s.reported ++ [(a, e)] } := by
  simp only [serviceStep, h]

/-- One step keeps the books. -/
theorem Service.Books.step (h : s.Books) {x : ServiceAction α ε} (hstep : serviceStep s x = some t) : t.Books := by
  unfold Service.Books at h ⊢
  cases x with
  | accept a =>
    simp only [serviceStep] at hstep
    split at hstep <;> cases hstep
    next hnone =>
      rw [hnone, Option.map_none, Option.toList_none, List.append_nil] at h
      rw [← h]
      rfl
  | finish =>
    simp only [serviceStep] at hstep
    split at hstep <;> cases hstep
    next hcurrent =>
      rw [hcurrent] at h
      exact h
  | report e =>
    simp only [serviceStep] at hstep
    split at hstep <;> cases hstep
    next hcurrent =>
      rw [hcurrent] at h
      rw [← h, List.map_append, Option.map_none, Option.toList_none, List.append_nil]
      rfl

/-- **The books are right in every run (proved).** -/
theorem Service.books (h : Reachable (enabled serviceStep) {} s) : s.Books := by
  have hstart : Service.Books ({} : Service α ε) := by
    show [] ++ [] = []
    exact List.append_nil []
  exact h.invariant hstart fun _ _ _ hs _ hstep => hs.step hstep

/-! ### Numbered requests -/

/-- **What is seen of a service whose requests are numbered from 1:** `n` of them have been accepted. -/
structure Service.Shows (s : Service ℕ ε) (current : Option (ℕ × Bool)) (n : ℕ) (reports : List (ℕ × ε)) : Prop where
  current : s.current = current
  accepted : s.accepted = List.range' 1 n
  reported : s.reported = reports

namespace Service.Shows

variable {u : Service ℕ ε} {current : Option (ℕ × Bool)} {n : ℕ} {reports : List (ℕ × ε)}

theorem start : Service.Shows ({} : Service ℕ ε) none 0 [] := ⟨rfl, rfl, rfl⟩

theorem accept (h : u.Shows none n reports) :
    ∃ v, Reachable (enabled serviceStep) u v ∧ v.Shows (some (n + 1, false)) (n + 1) reports := by
  refine ⟨_, .single trivial (serviceStep_accept (a := n + 1) h.current), rfl, ?_, h.reported⟩
  rw [List.range'_concat, h.accepted, Nat.add_comm 1, Nat.one_mul]

theorem finish (h : u.Shows (some (n, false)) n reports) :
    ∃ v, Reachable (enabled serviceStep) u v ∧ v.Shows (some (n, true)) n reports :=
  ⟨_, .single trivial (serviceStep_finish h.current), rfl, h.accepted, h.reported⟩

theorem report (h : u.Shows (some (n, true)) n reports) (e : ε) :
    ∃ v, Reachable (enabled serviceStep) u v ∧ v.Shows none n (reports ++ [(n, e)]) := by
  refine ⟨_, .single trivial (serviceStep_report (e := e) h.current), rfl, h.accepted, ?_⟩
  rw [h.reported]

/-- **Each request is reported once, in order,** and only the last one can be outstanding. -/
theorem books (h : u.Shows current n reports) (hrun : Reachable (enabled serviceStep) {} u) :
    reports.map Prod.fst ++ (current.map Prod.fst).toList = List.range' 1 n := by
  rw [← h.reported, ← h.current, ← h.accepted]
  exact Service.books hrun

end Service.Shows

end Connio.Lib
