import Connio.EventLockCalls

/-!
# The discipline of the event lock

* `apiCall_unlocked` — every API and every callback of the engine begins and ends without an event lock, and keeps the
  discipline unless it meets one of the three things of `LockView.Excuse`;
* `consumerCode_unlocked` — so does the code of the consumer, whatever it calls;
* `call_discipline` — along every path of every call, the discipline is kept exactly when none of the three is met;
* `call_balanced` — a call that returns holds no event lock.
-/

namespace Connio

namespace EventLock

open Lib Lib.Discipline
open Lib.Dialogue (act onlyIf cut)

section Consumer

variable {env : Env} (henv : Unlocked env.consumer)

include henv

/-! ### Synchronous calls -/

theorem connectEvent_unlocked (c : ℕ) {ready : Locking Bool} (hready : Calm ready) (type : ConnEventType) :
    Unlocked (connectEvent env c ready type) := by
  apply Unlocked.bind (synchronousConnectEventInsert_unlocked c)
  intro inserted
  apply Unlocked.onlyIf
  apply Unlocked.bind hready.unlocked
  intro isReady
  have hevent : Unlocked (implicitFlushOnConnectEvent env >>= fun _ =>
      eventProcess env (pure ()) type >>= fun _ => pure ()) :=
    (implicitEvent_unlocked henv .buffered .flush).bind fun _ => (eventProcess_plain_unlocked henv type).ignored
  apply Unlocked.bind (Unlocked.onlyIf isReady hevent)
  intro _
  exact (synchronousConnectEventRemove_unlocked c).ignored

omit henv in
theorem connectedNotSecured_calm : Calm connectedNotSecured := by
  apply (test_calm .socketOpen).bind
  intro openSocket
  exact Calm.ite ((test_calm .secured).bind fun _ => Calm.done _) (Calm.done false)

/-- A connect-class call that is refused while the handle shuts down. -/
theorem connectUnlessShuttingDown_unlocked (c : ℕ) (type : ConnEventType) :
    Unlocked (test .shuttingDown >>= fun b => onlyIf (!b) (connectEvent env c connectedNotSecured type)) := by
  apply Unlocked.bind (test_calm .shuttingDown).unlocked
  intro shuttingDown
  exact Unlocked.onlyIf _ (connectEvent_unlocked henv c connectedNotSecured_calm type)

theorem connectNewConn_unlocked (c : ℕ) : Unlocked (connectNewConn env c) := by
  apply Unlocked.bind (synchronousConnectEventInsert_unlocked c)
  intro inserted
  apply Unlocked.ite _ (Unlocked.done false)
  apply (eventProcess_plain_unlocked henv .connect).bind
  intro status
  exact (synchronousConnectEventRemove_unlocked c).bind fun _ => Unlocked.done _

theorem connConnectEx_unlocked : Unlocked (connConnectEx env) := by
  apply newConn_unlocked henv
  intro c
  apply henv.bind
  intro _
  apply Unlocked.bind (test_calm .shuttingDown).unlocked
  intro shuttingDown
  apply Unlocked.bind (test_calm .validArguments).unlocked
  intro valid
  apply Unlocked.ite _ (connFreeEx_ignored henv c)
  apply (connectNewConn_unlocked henv c).bind
  intro connected
  exact Unlocked.ite (Unlocked.done ()) (connFreeEx_ignored henv c)

theorem receiveEvent_unlocked (c : ℕ) {toConn : Locking Unit} (htoConn : Unlocked toConn) (type : ConnEventType) :
    Unlocked (receiveEvent env c toConn type) := by
  apply Unlocked.bind (test_calm .shuttingDown).unlocked
  intro shuttingDown
  apply Unlocked.onlyIf
  apply Unlocked.bind (synchronousReceiveEventInsert_unlocked c)
  intro (inserted, flush)
  apply Unlocked.onlyIf
  apply Unlocked.bind (Unlocked.onlyIf flush (eventProcess_plain_unlocked henv .flush).ignored)
  intro _
  apply (eventProcess_unlocked henv htoConn type).bind
  intro _
  exact (synchronousReceiveEventRemove_unlocked c flush).ignored

omit henv in
/-- A call whose arguments are checked first. -/
theorem ifValid_unlocked {p : Locking Unit} (h : Unlocked p) :
    Unlocked (test .validArguments >>= fun b => onlyIf b p) := by
  apply Unlocked.bind (test_calm .validArguments).unlocked
  intro valid
  exact Unlocked.onlyIf valid h

theorem connReadToCondition_unlocked (c : ℕ) (type : ConnEventType) : Unlocked (connReadToCondition env c type) := by
  apply ifValid_unlocked
  apply Unlocked.bind (test_calm .errnoSet).unlocked
  intro errno
  exact Unlocked.onlyIf _ (receiveEvent_unlocked henv c (Unlocked.done ()) type)

theorem connFlushEx_unlocked (c : ℕ) : Unlocked (connFlushEx env c) := by
  apply ifValid_unlocked
  apply Unlocked.bind (test_calm .buffered).unlocked
  intro buffered
  exact Unlocked.onlyIf _ (connFlushSync_unlocked henv c)

theorem connWriteFromCBEx_unlocked (c : ℕ) : Unlocked (connWriteFromCBEx env c) := by
  apply Unlocked.bind (test_calm .validArguments).unlocked
  intro valid
  apply Unlocked.bind (test_calm .shuttingDown).unlocked
  intro shuttingDown
  apply Unlocked.bind (test_calm .bufferAllocated).unlocked
  intro allocated
  apply Unlocked.onlyIf
  apply (synchronousSendEventInsert_unlocked c).bind
  intro inserted
  apply Unlocked.onlyIf
  apply (eventProcess_plain_unlocked henv .writeFromCb).bind
  intro _
  exact (synchronousSendEventRemove_unlocked c).ignored

/-! ### Asynchronous calls -/

omit henv in
theorem ifAsync_unlocked {p : Locking Unit} (h : Unlocked p) : Unlocked (ifAsync p) := by
  apply Unlocked.bind (test_calm .validArguments).unlocked
  intro valid
  apply Unlocked.bind (test_calm .asyncEnabled).unlocked
  intro asyncEnabled
  exact Unlocked.onlyIf _ h

theorem connASSLConnectEx_unlocked (c : ℕ) (tls : Bool) : Unlocked (connASSLConnectEx env c tls) := by
  apply ifAsync_unlocked
  apply Unlocked.bind (test_calm .shuttingDown).unlocked
  intro shuttingDown
  exact Unlocked.onlyIf _ (queueEvent_unlocked henv c _)

theorem connAReadToCondition_unlocked (c : ℕ) (type : ConnEventType) : Unlocked (connAReadToCondition env c type) := by
  apply ifAsync_unlocked
  apply Unlocked.bind (test_calm .errnoSet).unlocked
  intro errno
  exact Unlocked.ite (eventEnqueueFailure_unlocked env c) (queueUnlessShuttingDown_unlocked henv c type)

theorem connAReadAndSubmit_unlocked (c : ℕ) : Unlocked (connAReadAndSubmit env c) := by
  apply (connAReadToCondition_unlocked henv c .readUntilPattern).bind
  intro _
  exact (eventsSubmit_unlocked henv c).ignored

theorem connAWriteFromCBEx_unlocked (c : ℕ) : Unlocked (connAWriteFromCBEx env c) := by
  apply ifAsync_unlocked
  apply Unlocked.bind (test_calm .allocated).unlocked
  intro allocated
  apply Unlocked.ite _ (eventEnqueueFailure_unlocked env c)
  apply Unlocked.bind (test_calm .bufferAllocated).unlocked
  intro bufferAllocated
  apply Unlocked.ite
  · apply (eventEnqueueOrFree_unlocked henv c .writeFromCb).bind
    intro queued
    exact Unlocked.ite (Unlocked.done ()) (eventEnqueueFailure_unlocked env c)
  · apply (connEventFreeResources_unlocked henv).bind
    intro _
    exact eventEnqueueFailure_unlocked env c

/-- What waits in the send buffer becomes a flush. -/
theorem flushBuffered_unlocked (c : ℕ) : Unlocked (test .buffered >>= fun b => onlyIf b (connAFlush env c)) := by
  apply Unlocked.bind (test_calm .buffered).unlocked
  intro buffered
  exact Unlocked.onlyIf _ (queueEvent_unlocked henv c .flush)

theorem writeClientDataAsync_unlocked (c length : ℕ) : Unlocked (writeClientDataAsync env c length) :=
  writeClientData_unlocked (beginTransaction_unlocked c) (queueEvent_unlocked henv c .flush)
    (eventEnqueueFailure_unlocked env c) c length

theorem connAWriteEx_unlocked (c length : ℕ) : Unlocked (connAWriteEx env c length) := by
  apply ifAsync_unlocked
  apply (writeClientDataAsync_unlocked henv c length).bind
  intro _
  exact connEventFreeResources_unlocked henv

theorem writeLargeBuffer_unlocked (c : ℕ) : Unlocked (writeLargeBuffer env c) := by
  apply (flushBuffered_unlocked henv c).bind
  intro _
  apply Unlocked.bind (test_calm .allocated).unlocked
  intro allocated
  apply Unlocked.ite
  · apply (eventEnqueueOrFree_unlocked henv c .writeFromClientBuffer).bind
    intro queued
    exact Unlocked.ite (Unlocked.done ()) (largeBufferAbort_unlocked env c)
  · apply henv.bind
    intro _
    exact largeBufferAbort_unlocked env c

theorem connAWriteFromBufferEx_unlocked (c length : ℕ) : Unlocked (connAWriteFromBufferEx env c length) := by
  apply ifAsync_unlocked
  apply Unlocked.ite
  · apply (writeClientDataAsync_unlocked henv c length).bind
    intro _
    exact henv
  · exact writeLargeBuffer_unlocked henv c

theorem connAConnectEx_unlocked : Unlocked (connAConnectEx env) := by
  apply Unlocked.bind (test_calm .asyncEnabled).unlocked
  intro asyncEnabled
  apply Unlocked.bind (test_calm .shuttingDown).unlocked
  intro shuttingDown
  apply Unlocked.onlyIf
  apply newConn_unlocked henv
  intro c
  apply henv.bind
  intro _
  apply Unlocked.bind (test_calm .validArguments).unlocked
  intro valid
  apply Unlocked.bind (test_calm .allocated).unlocked
  intro allocated
  apply Unlocked.ite _ (connFreeEx_ignored henv c)
  apply (eventEnqueueOrFree_unlocked henv c .connect).bind
  intro queued
  exact Unlocked.ite (Unlocked.done ()) (connFreeEx_ignored henv c)

/-! ### Callbacks of the engine -/

theorem queueCompleteCallback_unlocked (c : ℕ) : Unlocked (queueCompleteCallback env c) := by
  apply Unlocked.acquire
  apply Releases.bind (prepareForCallback_under c)
  intro _
  apply Releases.release
  apply (connEventFreeListDestroy_unlocked henv env.rounds).bind
  intro _
  exact henv

theorem acceptCallback_unlocked : Unlocked (acceptCallback env) := by
  apply (connAllocEx_unlocked henv).bind
  intro conn
  exact Unlocked.onlyIf _ henv

theorem asyncListenerCallback_unlocked (c : ℕ) : Unlocked (asyncListenerCallback env c) := by
  apply Unlocked.acquire
  apply Releases.bind (connEventInProgressClear_under c)
  intro _
  apply Releases.bind (connChangeState_under c)
  intro _
  apply Releases.release
  apply (connEventFreeResources_unlocked henv).bind
  intro _
  exact henv

theorem asyncEventCallback_unlocked (c : ℕ) (event : LockEvent) : Unlocked (asyncEventCallback env c event) := by
  apply Unlocked.acquire
  apply Releases.bind (connEventsProcess_under henv c (some event))
  intro _
  exact Releases.last

/-! ### Any call -/

/-- **Every API and every callback (proved).** -/
theorem apiCall_unlocked (call : ConnCall) : Unlocked (apiCall env call) := by
  cases call with
  | handleAlloc => exact cacheAlloc_unlocked henv
  | handleFree => exact connHandleFree_unlocked henv
  | handleConnectionsAbort cllist => exact handleConnectionsAbortEx_unlocked env cllist
  | handleConnectionsClose _ => exact handleConnectionsCloseEx_unlocked henv
  | handleShutdown | childrenShutdown => exact shutdownEx_unlocked henv _
  | free c => exact connFreeEx_ignored henv c
  | kill c => exact (connKillEx_unlocked env c).ignored
  | syncReady c => exact (connState_calm c).unlocked.ignored
  | aNoop c => exact ifAsync_unlocked (eventEnqueue_unlocked henv c none).ignored
  | aQueuedEvents c =>
    have hqueued : Calm (eventsQueued c) := (submitProblem_calm c).bind fun _ => Calm.done _
    exact hqueued.unlocked.ignored
  | aSubmit c => exact ifAsync_unlocked (eventsSubmit_unlocked henv c).ignored
  | listen => exact connListenEx_unlocked henv
  | closeListener c => exact connCloseListenerEx_unlocked c
  | aListen => exact connAListenEx_unlocked henv
  | aListenerShutdown c => exact (asynchronousListenerShutdown_calm c).unlocked
  | aStartListener => exact connAStartListenerEx_unlocked henv env.rounds
  | aStopListener | aRemoveListener =>
    exact forEachConn_unlocked (fun c => (asynchronousListenerShutdown_calm c).unlocked) env.rounds
  | aRestartListener c => exact connARestartListenerEx_unlocked henv c
  | accept => exact connAcceptEx_unlocked henv
  | disconnect c => exact connectEvent_unlocked henv c connectedNotSecured_calm .disconnect
  | aDisconnect c | aSslDisconnect c => exact ifAsync_unlocked (queueEvent_unlocked henv c _)
  | connect => exact connConnectEx_unlocked henv
  | aConnect => exact connAConnectEx_unlocked henv
  | sslConnect c tls | sslAccept c tls => exact connectUnlessShuttingDown_unlocked henv c _
  | aSslConnect c tls => exact connASSLConnectEx_unlocked henv c tls
  | aSslAccept c tls => exact ifAsync_unlocked (queueUnlessShuttingDown_unlocked henv c _)
  | sslDisconnect c => exact connectEvent_unlocked henv c (test_calm .secured) .sslDisconnect
  | readToCondition c type => exact connReadToCondition_unlocked henv c type
  | aReadToCondition c type => exact connAReadToCondition_unlocked henv c type
  | aReadAndSubmit c => exact connAReadAndSubmit_unlocked henv c
  | readToCB c => exact ifValid_unlocked (receiveEvent_unlocked henv c (Unlocked.done ()) .readToCb)
  | aReadToCB c | aReadToConn c _ => exact ifAsync_unlocked (queueUnlessShuttingDown_unlocked henv c _)
  | readToConn c dest =>
    have hdest := readToConnProcess_unlocked henv dest env.rounds
    exact ifValid_unlocked (receiveEvent_unlocked henv c hdest .readToConn)
  | flush c => exact connFlushEx_unlocked henv c
  | aFlush c => exact ifAsync_unlocked (flushBuffered_unlocked henv c)
  | write c length => exact ifValid_unlocked (connWriteEx_unlocked henv c length)
  | aWrite c length => exact connAWriteEx_unlocked henv c length
  | aWriteFromBuffer c length => exact connAWriteFromBufferEx_unlocked henv c length
  | writeFromCB c => exact connWriteFromCBEx_unlocked henv c
  | aWriteFromCB c => exact connAWriteFromCBEx_unlocked henv c
  | aWriteBacklog c => exact (queueHead_calm c).unlocked.ignored
  | queueCompleteCallback c => exact queueCompleteCallback_unlocked henv c
  | acceptCallback => exact acceptCallback_unlocked henv
  | asyncListenerCallback c => exact asyncListenerCallback_unlocked henv c
  | asyncEventCallback c event => exact asyncEventCallback_unlocked henv c event
  | aListenerCallback c => exact connAListenerCallback_unlocked henv c

theorem apiCalls_unlocked (calls : List ConnCall) : Unlocked (apiCalls env calls) := by
  induction calls with
  | nil => exact Unlocked.done ()
  | cons call calls ih => exact (apiCall_unlocked henv call).bind fun _ => ih

end Consumer

/-- **The code of the consumer (proved),** by induction on how deep callbacks are nested. -/
theorem consumerCode_unlocked (debug : Bool) (rounds depth : ℕ) : Unlocked (consumerCode debug rounds depth) := by
  induction depth with
  | zero => exact Unlocked.cut
  | succ depth ih =>
    apply Unlocked.bind (Calm.asking fun _ _ => id).unlocked
    intro calls
    exact apiCalls_unlocked ih calls

theorem call_unlocked (debug : Bool) (rounds depth : ℕ) (c : ConnCall) : Unlocked (call debug rounds depth c) :=
  apiCall_unlocked (consumerCode_unlocked debug rounds depth) c

/-- **The event lock of a call (proved).** Along every path of every call, no lock is taken by the thread that has it and
every guarded field of a conn that other threads can reach is written under its lock, exactly when the path meets no
synchronous listener in the list of a handle whose conns are aborted or closed, no idle state in an asynchronous write, and
no queue without a problem in a large write that cannot be queued. -/
theorem call_discipline (debug : Bool) (rounds depth : ℕ) (c : ConnCall) (w : ℕ → (q : Question) → q.Answer) :
    eventLockDiscipline.Kept ⟨[], []⟩ ((call debug rounds depth c).run w).1 ↔
      eventLockDiscipline.Unexcused ⟨[], []⟩ ((call debug rounds depth c).run w).1 :=
  Wp.kept_iff (call_unlocked debug rounds depth c []) w

/-- **A call that returns (proved)** has given back every event lock, and every conn that it had for itself. -/
theorem call_balanced {debug : Bool} {rounds depth : ℕ} {c : ConnCall} {w : ℕ → (q : Question) → q.Answer}
    (hreturns : ((call debug rounds depth c).run w).2 = some ())
    (hmeets : eventLockDiscipline.Unexcused ⟨[], []⟩ ((call debug rounds depth c).run w).1) :
    eventLockDiscipline.after ⟨[], []⟩ ((call debug rounds depth c).run w).1 = ⟨[], []⟩ :=
  Wp.post (call_unlocked debug rounds depth c []) hreturns hmeets

/-- Answers for a handle whose list is one conn in the given state, whose queue has no problem, without memory. -/
def answersOf (state : ConnState) (n : ℕ) : (q : Question) → q.Answer
  | .state _ _ => state
  | .problem _ _ => false
  | .slot _ _ => false
  | .queueHead _ => false
  | .nextQueued _ _ => none
  | .outcome => .complete
  | .test t => decide (t = .validArguments ∨ t = .asyncEnabled)
  | .size => (1 : ℕ)
  | .cacheEntry => none
  | .nextConn => if n = 0 then some 0 else none
  | .calls => []

/-- **The discipline is broken:** a handle's conns are aborted and closed with a synchronous listener among them, the first
event of a transaction is a write, and a large write fails without memory. -/
theorem eventLock_fails :
    (¬ eventLockDiscipline.Kept ⟨[], []⟩
      ((call false 2 1 (.handleConnectionsAbort false)).run (answersOf .synchronousListener)).1) ∧
    (¬ eventLockDiscipline.Kept ⟨[], []⟩
      ((call false 2 1 (.handleConnectionsClose false)).run (answersOf .synchronousListener)).1) ∧
    (¬ eventLockDiscipline.Kept ⟨[], []⟩ ((call false 2 1 (.aWrite 0 5)).run (answersOf .idle)).1) ∧
    ¬ eventLockDiscipline.Kept ⟨[], []⟩
      ((call false 2 1 (.aWriteFromBuffer 0 connIobSize)).run (answersOf .asynchronousClient)).1 := by
  refine ⟨?_, ?_, ?_, ?_⟩
  · intro h
    exact h.2.1 (by simp [eventLockDiscipline, LockView.next])
  · intro h
    exact h.2.1 (by simp [eventLockDiscipline, LockView.next])
  · intro h
    cases h.1 with
    | inl hheld => cases hheld
    | inr hown => cases hown
  · intro h
    cases h.1 with
    | inl hheld => cases hheld
    | inr hown => cases hown

end EventLock

end Connio
