import Connio.QueueModel

/-!
# The life of a transaction

Facts about the abstract queue: a submitted transaction completes once, and it does complete.

* `LifeEntry`, `lifeInv_step` — **PROVED**: submit, completion and end of a transaction alternate in the
  log, no thread enters between completion and end, and the state agrees with the newest of the three;
* `DrainSafe`, `drainInv_step` — **PROVED**: as long as a problem that leaves the queue alone is recorded
  with the queue empty, a submitted transaction without threads has an active event;
* `Stuck`, `stuck_step` — **PROVED**: once events are queued behind a recorded problem they stay queued.
-/

namespace Connio

open Connio.Lib

/-! ### One completion for each submit -/

/-- What an entry of the log needs of the entries before it. -/
def LifeEntry : LogEntry → List LogEntry → Prop
  | .enter, t => lastMark t ≠ some .done
  | .submit, t => lastMark t = none ∨ lastMark t = some .prepare
  | .done, t => lastMark t = some .submit
  | .prepare _, t => lastMark t = some .done
  | .lastTest st, _ => st = .asynchronousClient ∨ st = .asynchronousEngine
  | _, _ => True

/-- The newest mark that goes with a state. -/
def markOf : ConnState → Option LogEntry.Mark → Prop
  | .idle, m | .asynchronousClient, m => m = none ∨ m = some .prepare
  | .asynchronousEngine, m => m = some .submit
  | .asynchronousEngineComplete, m => m = some .done
  | _, _ => False

structure LifeInv (v : QueueState) : Prop where
  mark : markOf v.state (lastMark v.log)
  entries : Entrywise LifeEntry v.log

theorem lastMark_append {l₁ l₂ : List LogEntry} (h : ∀ x ∈ l₁, x.mark? = none) :
    lastMark (l₁ ++ l₂) = lastMark l₂ := by
  have h' : l₁.filterMap LogEntry.mark? = [] := List.filterMap_eq_nil_iff.mpr h
  rw [lastMark, List.filterMap_append, h']
  rfl

/-- Entries without a mark that ask nothing of the log keep the invariant. -/
theorem LifeInv.extend {v v' : QueueState} (hinv : LifeInv v) (xs : List LogEntry)
    (hlog : v'.log = xs ++ v.log) (hstate : v'.state = v.state) (hm : ∀ x ∈ xs, x.mark? = none)
    (hx : ∀ x ∈ xs, ∀ t, LifeEntry x t) : LifeInv v' := by
  refine ⟨?_, ?_⟩
  · rw [hstate, hlog, lastMark_append hm]
    exact hinv.mark
  · rw [hlog]
    exact entrywise_append hx hinv.entries

theorem abort_log (v : QueueState) (p : AsyncProblem) :
    (v.abort p).log = (discards v.queued ++ [.report p]) ++ v.log := by
  simp [QueueState.abort, QueueState.dropQueue, QueueState.record, QueueState.write]

/-- The entries of an abort ask nothing of the log. -/
theorem abort_entries (v : QueueState) (p : AsyncProblem) :
    ∀ x ∈ discards v.queued ++ [.report p], x.mark? = none ∧ ∀ t, LifeEntry x t := by
  intro x hx
  rcases List.mem_append.mp hx with hx | hx
  · obtain ⟨e, _, rfl⟩ := mem_discards hx
    exact ⟨rfl, fun _ => trivial⟩
  · cases List.mem_singleton.mp hx
    exact ⟨rfl, fun _ => trivial⟩

theorem LifeInv.abort {v : QueueState} (hinv : LifeInv v) (p : AsyncProblem) :
    LifeInv (v.abort p) :=
  hinv.extend _ (abort_log v p) rfl (fun x hx => (abort_entries v p x hx).1)
    fun x hx => (abort_entries v p x hx).2

theorem LifeInv.vacate {v : QueueState} (hinv : LifeInv v) (e : EventId) (st : ConnEventStatus)
    (err : Errno) (src : CodeSource) : LifeInv (v.vacate e st err src) :=
  hinv.extend [_] rfl rfl (by simp [LogEntry.mark?]) (by simp [LifeEntry])

theorem LifeInv.cancel {v : QueueState} (hinv : LifeInv v) (e : EventId) :
    LifeInv (v.write (.cancel e)) :=
  hinv.extend [_] rfl rfl (by simp [LogEntry.mark?]) (by simp [LifeEntry])

/-- **Submit, completion and end alternate (proved).** -/
theorem lifeInv_step {v v' : QueueState} {ℓ : QueueLabel} (hinv : LifeInv v)
    (h : QueueStep v ℓ v') : LifeInv v' := by
  cases h with
  | alloc | again | start =>
    exact hinv.extend [_] rfl rfl (by simp [LogEntry.mark?]) (by simp [LifeEntry])
  | @quiet x hq =>
    refine hinv.extend [x] rfl rfl ?_ ?_ <;> intro y hy <;> cases List.mem_singleton.mp hy <;>
      revert hq <;> cases x <;> simp [LogEntry.isQuiet, LogEntry.mark?, LifeEntry]
  | enterClient state =>
    have hm := hinv.mark
    rw [state] at hm
    exact ⟨hm, hinv.entries⟩
  | append | drop | dropShutdown =>
    first
      | exact hinv.extend [_, _] rfl rfl (by simp [LogEntry.mark?]) (by simp [LifeEntry])
      | exact hinv.extend [_, _, _] rfl rfl (by simp [LogEntry.mark?]) (by simp [LifeEntry])
  | abort => exact hinv.abort _
  | enter state =>
    have hm := hinv.mark
    refine ⟨hm, ?_, hinv.entries⟩
    show lastMark v.log ≠ some .done
    rcases state with hs | hs
    · rw [hs] at hm
      rcases hm with hm | hm <;> rw [hm] <;> simp
    · rw [hs] at hm
      rw [show lastMark v.log = some .submit from hm]
      simp
  | finishCancelled => exact (hinv.vacate _ _ _ _).cancel _
  | finishFailed => exact (hinv.vacate _ _ _ _).abort _
  | finishPartial =>
    exact (hinv.vacate _ _ _ _).extend [_] rfl rfl (by simp [LogEntry.mark?]) (by simp [LifeEntry])
  | finishShutdown => exact ((hinv.vacate _ _ _ _).cancel _).abort _
  | finishComplete => exact hinv.vacate _ _ _ _
  | exit => exact ⟨hinv.mark, hinv.entries⟩
  | exitEmpty _ state =>
    refine hinv.extend [_] rfl rfl (by simp [LogEntry.mark?]) ?_
    intro x hx t
    cases List.mem_singleton.mp hx
    exact state
  | exitDone _ state =>
    have hm := hinv.mark
    rw [state] at hm
    exact ⟨rfl, hm, .inr rfl, hinv.entries⟩
  | submit state =>
    have hm := hinv.mark
    rw [state] at hm
    refine ⟨rfl, ?_, hm, hinv.entries⟩
    show some LogEntry.Mark.submit ≠ some .done
    simp
  | submitEmpty state | submitAgain state =>
    have hm := hinv.mark
    rw [state] at hm
    refine ⟨rfl, ?_, hm, trivial, hinv.entries⟩
    show some LogEntry.Mark.submit ≠ some .done
    simp
  | prepare state =>
    have hm := hinv.mark
    rw [state] at hm
    exact ⟨.inr rfl, hm, hinv.entries⟩

/-! ### Nothing is stranded -/

/-- Two steps record a problem and leave the queue alone: a partial result, and an event refused because
the handle is shutting down.  They are safe when nothing is queued. -/
def DrainSafe (v : QueueState) : QueueLabel → Prop
  | .dropShutdown _ => v.queued = []
  | .finish _ .partialResult => v.problem = none → v.queued = []
  | _ => True

structure DrainInv (v : QueueState) : Prop where
  drained : v.problem ≠ none → v.queued = []
  busy : v.state = .asynchronousEngine → v.threads = 0 → ¬ v.Inactive

/-- **A submitted transaction without threads has an active event (proved).** -/
theorem drainInv_step {v v' : QueueState} {ℓ : QueueLabel} (hinv : DrainInv v) (hst : StateInv v)
    (hsafe : DrainSafe v ℓ) (h : QueueStep v ℓ v') : DrainInv v' := by
  cases h with
  | alloc | quiet | drop | again => exact ⟨hinv.drained, hinv.busy⟩
  | enterClient => exact ⟨hinv.drained, fun hs => by cases hs⟩
  | append state problem =>
    refine ⟨fun hp => absurd problem hp, fun hs => ?_⟩
    exact absurd (state.symm.trans hs) (by simp)
  | dropShutdown state =>
    refine ⟨fun _ => hsafe, fun hs => ?_⟩
    exact absurd (state.symm.trans hs) (by simp)
  | abort => exact ⟨fun _ => rfl, hinv.busy⟩
  | enter => exact ⟨hinv.drained, fun _ ht => absurd ht (Nat.succ_ne_zero _)⟩
  | start _ startable =>
    exact ⟨fun hp => absurd startable.problem hp, fun _ ht => absurd ht (Nat.ne_of_gt startable.threads)⟩
  | finishCancelled fin => exact ⟨hinv.drained, fun _ ht => absurd ht (Nat.ne_of_gt fin.threads)⟩
  | finishFailed fin => exact ⟨fun _ => rfl, fun _ ht => absurd ht (Nat.ne_of_gt fin.threads)⟩
  | finishPartial fin problem =>
    exact ⟨fun _ => hsafe problem, fun _ ht => absurd ht (Nat.ne_of_gt fin.threads)⟩
  | finishShutdown fin => exact ⟨fun _ => rfl, fun _ ht => absurd ht (Nat.ne_of_gt fin.threads)⟩
  | finishComplete fin problem =>
    exact ⟨fun hp => absurd problem hp, fun _ ht => absurd ht (Nat.ne_of_gt fin.threads)⟩
  | exit _ _ stuck others =>
    refine ⟨hinv.drained, fun _ _ => ?_⟩
    rcases others with hq | hactive
    · -- something is queued, so there is no problem, and only an active event keeps it from starting
      rcases stuck with hp | hq' | hactive
      · exact absurd (hinv.drained hp) hq
      · exact absurd hq' hq
      · exact hactive
    · exact hactive
  | exitEmpty _ _ _ _ others =>
    refine ⟨hinv.drained, fun hs ht => ?_⟩
    rcases others with hc | ht'
    · exact absurd (hc.symm.trans hs) (by simp)
    · exact absurd (show v.threads - 1 = 0 from ht) (by omega)
  | exitDone _ _ queued => exact ⟨fun _ => queued, fun hs => by cases hs⟩
  | submit => exact ⟨hinv.drained, fun _ ht => absurd ht (Nat.succ_ne_zero _)⟩
  | submitEmpty state | submitAgain state =>
    exact ⟨fun _ => (hst.idle state).1, fun _ ht => absurd ht (Nat.succ_ne_zero _)⟩
  | prepare => exact ⟨fun hp => absurd rfl hp, fun hs => by cases hs⟩

/-- Events are queued behind a problem, which keeps them from being started. -/
def Stuck (v : QueueState) : Prop := v.problem ≠ none ∧ v.queued ≠ []

/-- **A stuck queue stays stuck (proved).** -/
theorem stuck_step {v v' : QueueState} {ℓ : QueueLabel} (hst : StateInv v) (hstuck : Stuck v)
    (h : QueueStep v ℓ v') : Stuck v' := by
  obtain ⟨hp, hq⟩ := hstuck
  cases h with
  | append _ problem | dropShutdown _ problem | abort problem | finishFailed _ problem
  | finishPartial _ problem | finishShutdown _ problem | finishComplete _ problem
  | submitEmpty _ problem => exact absurd problem hp
  | start _ startable => exact absurd startable.problem hp
  | exitEmpty _ _ queued | exitDone _ _ queued => exact absurd queued hq
  | prepare state => exact absurd (hst.complete state).1 hq
  | _ => exact ⟨hp, hq⟩

end Connio
