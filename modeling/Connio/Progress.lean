import Connio.EngineInv

/-!
# A submitted transaction completes, and completes once

What the facts of `Lifecycle` mean for one conn with its threads.

* `CompletesOnce`, `reachable_completesOnce` — **PROVED**: `ConnEventsProcess` returns FALSE at most once
  for each submit, the conn is quiescent from then to the end of the transaction, and no thread enters it;
* `NotStranded`, `reachable_notStranded` — **PROVED**: along runs of safe steps a submitted transaction
  without threads has an active event, or its completion thread has been notified;
* `notStranded_fails` — **PROVED**: a partial result recorded while an event is queued strands the
  transaction.
-/

namespace Connio

open Connio.Lib

/-! ### One completion for each submit -/

/-- **What the history and the state of a conn say about completions.** -/
structure CompletesOnce (c : Conn) : Prop where
  /-- FALSE is returned once after a submit, and not before it -/
  once : ∀ t, (.done :: t).IsSuffix c.log → lastMark t = some .submit
  submitted : ∀ t, (.submit :: t).IsSuffix c.log → lastMark t = none ∨ lastMark t = some .prepare
  ended : ∀ sm t, (.prepare sm :: t).IsSuffix c.log → lastMark t = some .done
  /-- from the return of FALSE to the end of the transaction -/
  quiescent : lastMark c.log = some .done →
    c.state = .asynchronousEngineComplete ∧ c.transaction.queue.head = none ∧ c.queued = [] ∧
      (∀ k, c.activeEvent.get k = none) ∧ c.transaction.threads = 0
  /-- no call of `ConnEventsProcess` starts then -/
  entered : ∀ t, (.enter :: t).IsSuffix c.log → lastMark t ≠ some .done
  reopened : lastMark c.log = some .prepare → c.state = .idle ∨ c.state = .asynchronousClient
  lastTest : ∀ st t, (.lastTest st :: t).IsSuffix c.log →
    st = .asynchronousClient ∨ st = .asynchronousEngine

/-- The state that goes with a mark. -/
theorem state_of_mark {st : ConnState} {m : Option LogEntry.Mark} (h : markOf st m) :
    (m = some .done → st = .asynchronousEngineComplete) ∧
      (m = some .submit → st = .asynchronousEngine) ∧
      (m = some .prepare → st = .idle ∨ st = .asynchronousClient) := by
  refine ⟨?_, ?_, ?_⟩ <;> rintro rfl <;> cases st <;> simp [markOf] at h ⊢

theorem AsyncInv.completesOnce {s : AsyncSystem} (hinv : AsyncInv s) : CompletesOnce s.conn := by
  have hlife := hinv.queue.life
  have hentry := entrywise_iff.mp hlife.entries
  refine ⟨fun t ht => hentry _ t ht, fun t ht => hentry _ t ht,
    fun sm t ht => hentry _ t ht, fun hm => ?_,
    fun t ht => hentry _ t ht, fun hm => (state_of_mark hlife.mark).2.2 hm,
    fun st t ht => hentry _ t ht⟩
  have hst := (state_of_mark hlife.mark).1 hm
  obtain ⟨hq, hactive, hthreads⟩ := hinv.queue.state.complete hst
  refine ⟨hst, ?_, hq, hactive, hthreads⟩
  rw [DList.Represents.head_eq hinv.wf, show s.conn.queued = [] from hq]
  rfl

/-- **At most one completion for each submit, never early (proved).**  The completion thread of a
transaction has been notified and has not yet ended it exactly when the conn is complete. -/
theorem reachable_completesOnce {s s' : AsyncSystem} (hinit : s.Initial)
    (h : Reachable (enabled asyncStep) s s') :
    CompletesOnce s'.conn ∧ s'.completions.count .starting =
      if s'.conn.state = .asynchronousEngineComplete then 1 else 0 :=
  have hinv := asyncInv_reachable hinit h
  ⟨hinv.completesOnce, hinv.completing⟩

/-! ### Nothing is stranded -/

/-- **A submitted transaction is not stranded:** without threads it has an active event, or the
completion thread has been notified. -/
structure AsyncSystem.NotStranded (s : AsyncSystem) : Prop where
  active : s.conn.state = .asynchronousEngine → s.conn.transaction.threads = 0 →
    ∃ k, s.conn.activeEvent.get k ≠ none
  notified : (lastMark s.conn.log = some .submit ∨ lastMark s.conn.log = some .done) →
    s.conn.transaction.threads = 0 → (∀ k, s.conn.activeEvent.get k = none) →
      s.conn.state = .asynchronousEngineComplete ∧ .starting ∈ s.completions

/-- The invariant of a new conn. -/
theorem DrainInv.initial {s : AsyncSystem} (h : s.Initial) : DrainInv (view s.conn) := by
  refine ⟨fun hp => absurd h.problem hp, fun hs => ?_⟩
  exact absurd (h.state.symm.trans hs) (by simp)

theorem drainInv_reachable {v v' : QueueState} (hinv : QueueInv v) (hdrain : DrainInv v)
    (h : ReachableVia QueueStep DrainSafe v v') : DrainInv v' := by
  have key : QueueInv v' ∧ DrainInv v' := by
    refine h.invariant (P := fun w => QueueInv w ∧ DrainInv w) ⟨hinv, hdrain⟩ ?_
    rintro w ℓ w' ⟨hinv, hdrain⟩ hsafe hstep
    exact ⟨queueInv_step hinv hstep, drainInv_step hdrain hinv.state hsafe hstep⟩
  exact key.2

theorem AsyncInv.notStranded {s : AsyncSystem} (hinv : AsyncInv s) (hdrain : DrainInv (view s.conn)) :
    s.NotStranded := by
  have hactive : s.conn.state = .asynchronousEngine → s.conn.transaction.threads = 0 →
      ∃ k, s.conn.activeEvent.get k ≠ none := by
    intro hst hth
    by_contra hnone
    refine hdrain.busy hst hth fun k => ?_
    by_contra hk
    exact hnone ⟨k, hk⟩
  refine ⟨hactive, fun hm hth hnone => ?_⟩
  obtain ⟨hdone, hsubmit, _⟩ := state_of_mark hinv.queue.life.mark
  rcases hm with hm | hm
  · obtain ⟨k, hk⟩ := hactive (hsubmit hm) hth
    exact absurd (hnone k) hk
  · have hst : s.conn.state = .asynchronousEngineComplete := hdone hm
    refine ⟨hst, List.count_pos_iff.mp ?_⟩
    rw [hinv.completing, if_pos hst]
    exact Nat.one_pos

/-! ### A step that is not safe -/

theorem connEventsProcessLeave_stuck {c : Conn} (h : Stuck (view c)) :
    Stuck (view (connEventsProcessLeave c).2) := by
  simp only [connEventsProcessLeave]
  repeat' split
  all_goals exact h

/-- A thread that finds a stuck queue leaves it. -/
theorem connEventsProcessLoop_stuck {c : Conn} (h : Stuck (view c)) :
    Stuck (view (connEventsProcessLoop c none).2) := by
  have hnext : connEventNext c = (none, c) := by
    rw [connEventNext, if_pos]
    exact Option.isSome_iff_ne_none.mpr h.1
  simp only [connEventsProcessLoop, hnext]
  exact connEventsProcessLeave_stuck h

/-- A partial result is recorded while something is queued. -/
theorem relock_stuck {c : Conn} {e : EventId} (hstatus : (c.events e).status = .partialResult)
    (hp : c.transaction.problem = none) (hq : c.queued ≠ []) :
    Stuck (view (connEventsProcessRelock c e .partialResult).2) := by
  rw [connEventsProcessRelock, if_neg (by simp)]
  refine connEventsProcessLoop_stuck ?_
  let c₁ := (connEventInProgressClear c e).note
    (.leave e (c.events e).status (c.events e).error (c.events e).source)
  obtain ⟨hview, _, hevents, hproblem, _⟩ := captureStats_frame c₁ e
  have hp₁ : (captureStats c₁ e).transaction.problem = none := hproblem.trans hp
  have hst₁ : ((captureStats c₁ e).events e).status = .partialResult := by
    rw [hevents]
    exact hstatus
  have hq₁ : (captureStats c₁ e).queued = c.queued := congrArg QueueState.queued hview
  show Stuck (view (connEventFreeListAdd (handleErrors (captureStats c₁ e) e) e))
  simp only [handleErrors, hp₁, hst₁, setAsyncProblem, Option.isSome_none, Bool.false_eq_true,
    if_false, reduceCtorEq, or_self, if_true]
  refine ⟨Option.some_ne_none _, ?_⟩
  show (captureStats c₁ e).queued ≠ []
  rw [hq₁]
  exact hq

/-- An event is refused while something is queued. -/
theorem eventEngineQueueAdd_stuck {c : Conn} {e : EventId} (hp : c.transaction.problem = none)
    (hsh : c.shuttingDown = true) (ht : (c.typeOf e).isShutdown = false) (hq : c.queued ≠ []) :
    Stuck (view (eventEngineQueueAdd c e)) := by
  simp only [eventEngineQueueAdd, hp, hsh, ht, setAsyncProblem, if_true, Bool.true_eq_false,
    Bool.false_eq_true, if_false]
  exact ⟨Option.some_ne_none _, hq⟩

/-- The queue behind an appended event. -/
theorem queued_append {c : Conn} {e : EventId} (hwf : c.Wf) (he : e ∉ c.queued) :
    (eventQueueAppendEvent c e).queued = c.queued ++ [e] :=
  (Conn.Wf.of_represents (c := eventQueueAppendEvent c e) (DList.represents_append hwf he)).2

/-- A shutdown event is always queued. -/
theorem eventEngineQueueAdd_shutdown {c : Conn} {e : EventId} (hp : c.transaction.problem = none)
    (ht : (c.typeOf e).isShutdown = true) : eventEngineQueueAdd c e = eventQueueAppendEvent c e := by
  simp only [eventEngineQueueAdd, hp, ht, if_true, ite_self]

/-- A flush that is needed is queued in front of the event. -/
theorem insertFlush_some {c : Conn} {e f : EventId} (hwf : c.Wf) (hneeded : FlushNeeded c e)
    (hp : c.transaction.problem = none) (hf : f ∉ c.queued) (source : CodeSource) :
    (insertFlush c e (some f) source).transaction.problem = none ∧
      (insertFlush c e (some f) source).queued ≠ [] := by
  have hsame := bufferedSendDataGet_transaction c
  obtain ⟨hclass, hdata⟩ := hneeded
  cases hget : bufferedSendDataGet c with
  | mk withData c₁ =>
  rw [hget] at hdata hsame
  cases hdata
  let c₂ := ((c₁.setEvent f { type := .flush, source := source, ioBuffer := true, inserted := true }).note
    (.alloc f)).note (.accept f)
  have htrans : c₂.transaction = c.transaction := hsame
  have hp₂ : c₂.transaction.problem = none := by
    rw [htrans]
    exact hp
  have htype : (c₂.typeOf f).isShutdown = true := by
    simp [c₂, Conn.note, Conn.setEvent, Conn.typeOf, ConnEventType.isShutdown]
  have hinsert : insertFlush c e (some f) source = eventQueueAppendEvent c₂ f := by
    rw [insertFlush, if_neg hclass, hget]
    exact eventEngineQueueAdd_shutdown hp₂ htype
  have hwf₂ : c₂.Wf := by
    rw [Conn.Wf, Conn.queued, htrans]
    exact hwf
  have hf₂ : f ∉ c₂.queued := by
    rw [Conn.queued, htrans]
    exact hf
  rw [hinsert]
  refine ⟨hp₂, ?_⟩
  rw [queued_append hwf₂ hf₂]
  simp

/-- An event that is refused leaves the events in front of it in the queue. -/
theorem enqueueEvents_stuck {c : Conn} {e : EventId} {allocs : Allocs} (hwf : c.Wf)
    (hinv : QueueInv (view c)) (hstate : c.state = .asynchronousClient)
    (halloc : e ∈ allocated c.log) (hflush : ∀ f, allocs.flush = some f → f ∉ allocated c.log)
    (source : CodeSource) (hbad : ¬ EnqueueSafe c e allocs) :
    Stuck (view (enqueueEvents c e allocs source)) := by
  simp only [EnqueueSafe, not_forall] at hbad
  obtain ⟨hp, hsh, ht, hbad⟩ := hbad
  obtain ⟨h1, hs1⟩ := insertFlush_effect (P := True) (e := e) hwf hinv hstate hflush source
  have htype : (insertFlush c e allocs.flush source).typeOf e = c.typeOf e := h1.typeOf e halloc
  have hne : (insertFlush c e allocs.flush source).typeOf e ≠ .disconnect := by
    intro h
    rw [← htype, h] at ht
    cases ht
  obtain ⟨hq2, hp2, hsh2, hev2⟩ := insertSslDisconnect_of_ne hne allocs.sslDisconnect source
  -- what is queued in front of `e`
  obtain ⟨hp1, hq1⟩ : (insertFlush c e allocs.flush source).transaction.problem = none ∧
      (insertFlush c e allocs.flush source).queued ≠ [] := by
    by_cases hneeded : FlushNeeded c e
    · cases hf : allocs.flush with
      | none => exact absurd ⟨fun _ => hf, fun h => absurd hneeded h⟩ hbad
      | some f =>
        have hfq : f ∉ c.queued := fun h => hflush f hf
          (hinv.order.accepted_allocated f (hinv.queued_accepted f h))
        exact insertFlush_some hwf hneeded hp hfq source
    · have hq : c.queued ≠ [] := fun h => hbad ⟨fun hn => absurd hn hneeded, fun _ => h⟩
      rw [Conn.queued, insertFlush_of_not hneeded]
      exact ⟨hp, hq⟩
  refine eventEngineQueueAdd_stuck (hp2.trans hp1) ?_ ?_ ?_
  · exact hsh2.trans (hs1.shuttingDown.trans hsh)
  · have htype2 : (insertSslDisconnect (insertFlush c e allocs.flush source) e allocs.sslDisconnect
        source).typeOf e = (insertFlush c e allocs.flush source).typeOf e := by
      rw [Conn.typeOf, hev2]
      rfl
    show ((insertSslDisconnect (insertFlush c e allocs.flush source) e allocs.sslDisconnect
      source).typeOf e).isShutdown = false
    rw [htype2, htype]
    simpa using ht
  · show (insertSslDisconnect (insertFlush c e allocs.flush source) e allocs.sslDisconnect
      source).queued ≠ []
    rw [hq2]
    exact hq1

/-- **A step that is not safe leaves the queue stuck (proved).** -/
theorem asyncStep_stuck {s s' : AsyncSystem} {a : AsyncAction} (hinv : AsyncInv s)
    (h : asyncStep s a = some s') (hbad : ¬ StepSafe s a) : Stuck (view s'.conn) := by
  cases a with
  | relock w =>
    simp only [StepSafe, not_forall] at hbad
    obtain ⟨hst, hp, hq⟩ := hbad
    simp only [asyncStep, hst] at h
    split at h <;> cases h
    next hw =>
    rw [AsyncSystem.outcome_conn]
    rcases hinv.returned w hw _ hst with heq | ⟨_, hstatus⟩
    · cases heq
    · exact relock_stuck hstatus hp hq
  | enqueue connEvent allocs source =>
    cases connEvent with
    | none => exact absurd trivial hbad
    | some e =>
    simp only [asyncStep] at h
    split at h <;> cases h
    next hok =>
    simp only [StepSafe, Classical.not_imp] at hbad
    obtain ⟨hperm, hbad⟩ := hbad
    have hmem : e ∈ s.caller := hok.1 e rfl
    have halloc : e ∈ allocated s.conn.log :=
      hinv.outside_allocated (by simp [AsyncSystem.outside, hmem])
    obtain ⟨h1, hstate, _, _, hlog⟩ := asyncClientEnter_effect (P := True) hinv.wf hperm
    have hstuck := enqueueEvents_stuck h1.wf (h1.inv hinv.queue) hstate (hlog ▸ halloc)
      (hlog ▸ (Allocs.fresh_iff hok.2).flush) source
      (mt EnqueueSafe.asyncClientEnter_iff.mp hbad)
    obtain ⟨r, hr, hview⟩ : ∃ r, eventEnqueue s.conn (some e) allocs source = some r ∧
        Stuck (view r.2) := by
      simp only [eventEnqueue, hperm, if_true, Option.elim_some]
      by_cases hwait : (enqueueEvents (asyncClientEnter s.conn) e allocs source).waitForSubmit = true
      · exact ⟨_, if_pos hwait, hstuck⟩
      · exact ⟨_, if_neg hwait, connEventsProcessLoop_stuck hstuck⟩
    simp only [AsyncSystem.enqueue, hr, AsyncSystem.outcome_conn]
    exact hview
  | _ => exact absurd trivial hbad

theorem stuck_reachable {v v' : QueueState} {ok : QueueState → QueueLabel → Prop} (hinv : QueueInv v)
    (hstuck : Stuck v) (h : ReachableVia QueueStep ok v v') : Stuck v' := by
  have key : QueueInv v' ∧ Stuck v' := by
    refine h.invariant (P := fun w => QueueInv w ∧ Stuck w) ⟨hinv, hstuck⟩ ?_
    rintro w ℓ w' ⟨hinv, hstuck⟩ _ hstep
    exact ⟨queueInv_step hinv hstep, stuck_step hinv.state hstuck hstep⟩
  exact key.2

/-- From a stuck queue no run reaches the end of the transaction. -/
theorem stuck_notComplete {s s' : AsyncSystem} (hinv : AsyncInv s) (hstuck : Stuck (view s.conn))
    (h : Reachable (enabled asyncStep) s s') : s'.conn.state ≠ .asynchronousEngineComplete := by
  have key : AsyncInv s' ∧ Stuck (view s'.conn) := by
    refine h.invariant (P := fun s => AsyncInv s ∧ Stuck (view s.conn)) ⟨hinv, hstuck⟩ ?_
    rintro s a s' ⟨hinv, hstuck⟩ _ hstep
    obtain ⟨hinv', hchange⟩ := asyncStep_effect hinv hstep
    exact ⟨hinv', stuck_reachable hinv.queue hstuck hchange.refines⟩
  exact fun hst => key.2.2 (key.1.queue.state.complete hst).1

/-- **No transaction is stranded along runs of safe steps, and the first step that is not safe strands
one (proved):** from then on the transaction never completes. -/
theorem reachable_notStranded {s s' : AsyncSystem} (hinit : s.Initial)
    (h : ReachableVia (enabled asyncStep) StepSafe s s') :
    s'.NotStranded ∧ ∀ a t t', asyncStep s' a = some t → ¬ StepSafe s' a →
      Reachable (enabled asyncStep) t t' → t'.conn.state ≠ .asynchronousEngineComplete := by
  have hinv := asyncInv_reachable hinit h
  refine ⟨hinv.notStranded ?_, fun a t t' hstep hbad ht => ?_⟩
  · exact drainInv_reachable (AsyncInv.initial hinit).queue (.initial hinit)
      (view_reachable_safe hinit h)
  · exact stuck_notComplete (asyncStep_effect hinv hstep).1 (asyncStep_stuck hinv hstep hbad) ht

/-! ### A stranded transaction -/

/-- A write `0`, the events of `behind` and a read `1` are queued, and the call that queues the read submits them, as
`ConnAGetS` does.  The read starts beside the write and ends with `EMSGSIZE` and a partial result, then the write
completes. -/
def partialRun (behind : List AsyncAction) : List AsyncAction :=
  queueRun 0 { type := .writeFromClientBuffer, source := ⟨0, 1⟩, bufferStart := true } ++
  behind ++
  queueRun 1 { type := .readUntilPattern, source := ⟨0, 2⟩, partialOk := true } ++
  [.submit true 0 ⟨0, 2⟩] ++
  processRun 1 [(.destroying [], .destroy), (.starting, .test),
    (.processing, .process (.receive [65, 66])), (.processing, .process (.deliver 1 1)),
    (.processing, .process (.ret Errno.emsgsize .none)), (.aborting, .abort), (.aborted, .judge)]
    .partialResult ++
  processRun 0 [(.destroying [], .destroy), (.starting, .test), (.processing, .process .send),
    (.processing, .process (.ret 0 .none))] .complete

/-- The state, the threads and the active events at the end of a run. -/
def AsyncSystem.observe (s : AsyncSystem) : ConnState × ℕ × Slots (Option EventId) :=
  (s.conn.state, s.conn.transaction.threads, s.conn.activeEvent)

theorem partialRun_complete : (runFrom (guarded StepSafe asyncStep) (AsyncSystem.new (some 3))
    (partialRun [])).map AsyncSystem.observe =
      some (.asynchronousEngineComplete, 0, ⟨none, none, none⟩) := by
  decide +kernel

theorem partialRun_stuck : (runFrom asyncStep (AsyncSystem.new (some 3)) (partialRun (queueRun 2
    { type := .writeFromClientBuffer, source := ⟨0, 3⟩, bufferStart := true }))).map
      AsyncSystem.observe = some (.asynchronousEngine, 0, ⟨none, none, none⟩) := by
  decide +kernel

/-- A partial result with nothing behind it: the transaction completes. -/
theorem reachable_notStranded_partialResult : ∃ s : AsyncSystem, s.NotStranded ∧
    s.observe = (.asynchronousEngineComplete, 0, ⟨none, none, none⟩) := by
  obtain ⟨s, hrun, hobs⟩ := Option.map_eq_some_iff.mp partialRun_complete
  exact ⟨s, (reachable_notStranded (AsyncSystem.new_initial (some 3))
    (reachableVia_of_runFrom hrun)).1, hobs⟩

/-- One completion after one submit. -/
theorem reachable_completesOnce_partialResult : ∃ s : AsyncSystem, CompletesOnce s.conn ∧
    s.completions.count .starting = 1 := by
  obtain ⟨s, hrun, hobs⟩ := Option.map_eq_some_iff.mp partialRun_complete
  simp only [AsyncSystem.observe, Prod.mk.injEq] at hobs
  obtain ⟨honce, hcount⟩ := reachable_completesOnce (AsyncSystem.new_initial (some 3))
    (reachableVia_of_runFrom hrun).reachable
  rw [if_pos hobs.1] at hcount
  exact ⟨s, honce, hcount⟩

/-- **A partial result strands the events behind it (proved).** -/
theorem notStranded_fails : ¬ ∀ s s' : AsyncSystem, s.Initial → Reachable (enabled asyncStep) s s' →
    s'.NotStranded := by
  intro h
  obtain ⟨s', hrun, hobs⟩ := Option.map_eq_some_iff.mp partialRun_stuck
  have hstranded := (h _ s' (AsyncSystem.new_initial (some 3)) (reachable_of_runFrom hrun)).active
  simp only [AsyncSystem.observe, Prod.mk.injEq] at hobs
  obtain ⟨hstate, hthreads, hactive⟩ := hobs
  obtain ⟨k, hk⟩ := hstranded hstate hthreads
  rw [hactive] at hk
  cases k <;> exact hk rfl

end Connio
