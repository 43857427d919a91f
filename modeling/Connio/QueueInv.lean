import Connio.Lifecycle
import Connio.Summary

/-!
# The invariant of the abstract queue

The invariants of `QueueModel`, `Lifecycle`, `Scheduling` and `Summary` together.

* `QueueInv`, `queueInv_step`, `queueInv_reachable` — **PROVED**: they hold along every run;
* `reachable_suffix`, `reachable_typeOf` — along a run the log grows and allocated events keep their type.
-/

namespace Connio

open Connio.Lib

/-- A step allocates at most one event, which is fresh. -/
theorem queueStep_allocated {v v' : QueueState} {ℓ : QueueLabel} (h : QueueStep v ℓ v') :
    allocated v'.log = allocated v.log ∨
      ∃ e, e ∉ allocated v.log ∧ allocated v'.log = e :: allocated v.log := by
  have habort : ∀ (w : QueueState) (p : AsyncProblem),
      allocated (w.abort p).log = allocated w.log := fun w p => by
    rw [abort_log, List.append_assoc]
    exact (discards_log _ _).2.2.2.2.1
  cases h with
  | alloc fresh => exact .inr ⟨_, fresh, rfl⟩
  | @quiet x hq =>
    left
    show allocated (x :: v.log) = _
    cases x <;> first | rfl | cases hq
  | abort | finishFailed | finishShutdown =>
    exact .inl (habort _ _)
  | _ => exact .inl rfl

/-- A step accepts at most one event, for the first time. -/
theorem queueStep_accepted {v v' : QueueState} {ℓ : QueueLabel} (h : QueueStep v ℓ v') :
    accepted v'.log = accepted v.log ∨
      ∃ e, e ∉ accepted v.log ∧ accepted v'.log = e :: accepted v.log := by
  have habort : ∀ (w : QueueState) (p : AsyncProblem),
      accepted (w.abort p).log = accepted w.log := fun w p => by
    rw [abort_log, List.append_assoc]
    exact (discards_log _ _).2.2.2.1
  cases h with
  | append _ _ _ fresh | drop _ _ _ fresh | dropShutdown _ _ _ fresh => exact .inr ⟨_, fresh, rfl⟩
  | @quiet x hq =>
    left
    show accepted (x :: v.log) = _
    cases x <;> first | rfl | cases hq
  | abort | finishFailed | finishShutdown =>
    exact .inl (habort _ _)
  | _ => exact .inl rfl

structure QueueInv (v : QueueState) : Prop where
  allocated_nodup : (allocated v.log).Nodup
  accepted_nodup : (accepted v.log).Nodup
  slot : SlotInv v
  state : StateInv v
  life : LifeInv v
  order : OrderInv v
  summary : SummaryInv v

theorem queueInv_step {v v' : QueueState} {ℓ : QueueLabel} (hinv : QueueInv v)
    (h : QueueStep v ℓ v') : QueueInv v' where
  allocated_nodup := by
    rcases queueStep_allocated h with heq | ⟨e, he, heq⟩ <;> rw [heq]
    · exact hinv.allocated_nodup
    · exact List.nodup_cons.mpr ⟨he, hinv.allocated_nodup⟩
  accepted_nodup := by
    rcases queueStep_accepted h with heq | ⟨e, he, heq⟩ <;> rw [heq]
    · exact hinv.accepted_nodup
    · exact List.nodup_cons.mpr ⟨he, hinv.accepted_nodup⟩
  slot := slotInv_step hinv.slot h
  state := stateInv_step hinv.state h
  life := lifeInv_step hinv.life h
  order := orderInv_step hinv.order hinv.slot hinv.state h
  summary := summaryInv_step hinv.summary hinv.order hinv.state h

variable {ok : QueueState → QueueLabel → Prop}

theorem queueInv_reachable {v v' : QueueState} (hinv : QueueInv v)
    (h : ReachableVia QueueStep ok v v') : QueueInv v' :=
  h.invariant hinv fun _ _ _ hinv _ hstep => queueInv_step hinv hstep

theorem reachable_suffix {v v' : QueueState} (h : ReachableVia QueueStep ok v v') :
    v.log.IsSuffix v'.log :=
  h.invariant (P := fun w => v.log.IsSuffix w.log) List.suffix_rfl fun _ _ _ ih _ hstep =>
    ih.trans (queueStep_frame hstep).1

theorem reachable_typeOf {v v' : QueueState} (h : ReachableVia QueueStep ok v v') :
    ∀ e ∈ allocated v.log, v'.typeOf e = v.typeOf e := by
  have key : v.log.IsSuffix v'.log ∧ ∀ e ∈ allocated v.log, v'.typeOf e = v.typeOf e := by
    refine h.invariant (P := fun w => v.log.IsSuffix w.log ∧
      ∀ e ∈ allocated v.log, w.typeOf e = v.typeOf e) ⟨List.suffix_rfl, fun _ _ => rfl⟩ ?_
    intro w ℓ w' ih _ hstep
    obtain ⟨hlog, htype⟩ := queueStep_frame hstep
    refine ⟨ih.1.trans hlog, fun e he => ?_⟩
    rw [htype e (allocated_mono ih.1 he), ih.2 e he]
  exact key.2

/-- Events that are queued or active have been accepted. -/
theorem QueueInv.queued_accepted {v : QueueState} (hinv : QueueInv v) :
    ∀ e ∈ v.queued, e ∈ accepted v.log := fun e he =>
  hinv.order.appended_accepted e (hinv.order.queued_sublist.subset (List.mem_reverse.mpr he))

theorem QueueInv.active_accepted {v : QueueState} (hinv : QueueInv v) :
    ∀ k e, v.active.get k = some e → e ∈ accepted v.log := fun k e hk =>
  hinv.order.appended_accepted e
    (hinv.order.started_appended e (hinv.order.active_started k e hk).1)

/-- The queue of a new conn. -/
theorem QueueInv.initial {v : QueueState} (hq : v.queued = []) (ha : v.Inactive)
    (hp : v.problem = none) (hs : v.state = .idle) (ht : v.threads = 0) (hl : v.log = []) :
    QueueInv v := by
  have hslot : ∀ k e, v.active.get k ≠ some e := fun k e hk => by
    rw [ha k] at hk
    cases hk
  have hconn : v.active.connect = none := ha .connect
  refine ⟨?_, ?_, ⟨?_, ?_, ?_, ?_⟩, ⟨.inl hs, fun _ => ⟨hq, ha, ht⟩, ?_⟩, ⟨?_, ?_⟩, ⟨?_, ?_, ?_, ?_, ?_, ?_,
    ?_, ?_, ?_, ?_, ?_, ?_, ?_, ?_⟩, ⟨?_, ?_, ?_, ?_, ?_, ?_, ?_, ?_⟩⟩
  all_goals simp [hq, hp, hs, hl, hslot, hconn, appended, accepted, allocated, started, left,
    discarded, firstProblem, problems, txnLog, lastMark, markOf, Entrywise]

end Connio
