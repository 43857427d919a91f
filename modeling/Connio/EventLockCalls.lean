import Connio.EventLockKept

/-!
# The event lock where conns and listeners come and go

* a conn of the cache — `cacheGetEntry_wp`, `connAllocEx_unlocked`, `connFreeEx_unlocked`: it is written without its lock
  while no other thread can reach it;
* `eventEnqueue_unlocked`, `eventsSubmit_unlocked` — events are queued and worked on under the lock;
* `abortConn_under`, `closeConn_under`, `beginTransaction_unlocked`, `largeBufferAbort_unlocked` — the places that go wrong,
  each with the answer that it goes wrong after.
-/

namespace Connio

namespace EventLock

open Lib Lib.Discipline
open Lib.Dialogue (act onlyIf cut)

variable {α β : Type} {c : ℕ} {p q : Locking α} {k : α → Locking β}

/-! ### A conn that no other thread can reach -/

/-- The conn is the thread's own before and after. -/
def Owning (c : ℕ) (p : Locking α) : Prop := ∀ own, eventLockDiscipline.Moves ⟨[], c :: own⟩ ⟨[], c :: own⟩ p

namespace Owning

theorem bind (h : Owning c p) (hk : ∀ a, Owning c (k a)) : Owning c (p >>= k) :=
  fun own => (h own).bind fun a => hk a own

/-- A thread may do with its own conn what it may do with any. -/
theorem of_unlocked (h : Unlocked p) : Owning c p := fun own => h (c :: own)

theorem write (field : GuardedField) : Owning c (act (.write c field)) := by
  intro own
  exact Moves.act (Or.inr List.mem_cons_self) rfl

end Owning

theorem connectionWipe_owning (c : ℕ) : Owning c (connectionWipe c) := by
  apply Owning.bind (Owning.write .state)
  intro _
  apply Owning.bind (Owning.write .activeEvent)
  intro _
  apply Owning.bind (Owning.write .queue)
  intro _
  apply Owning.bind (Owning.write .problem)
  intro _
  exact Owning.write .freeList

/-- The state is changed in a critical section of its own. -/
theorem changeState_unlocked (c : ℕ) :
    Unlocked (eventLockAcquire c >>= fun _ => connChangeState c >>= fun _ => eventLockRelease c) :=
  Unlocked.locked (connChangeState_under c)

theorem connectionInit_owning (c : ℕ) : Owning c (connectionInit c) := by
  apply (connectionWipe_owning c).bind
  intro _
  exact Owning.of_unlocked (changeState_unlocked c)

theorem isListener_calm (c : ℕ) : Calm (isListener c) := (connState_calm c).bind fun _ => Calm.done _

section Consumer

variable {env : Env} (henv : Unlocked env.consumer)

include henv

theorem connAllocCB_owning (c : ℕ) : Owning c (connAllocCB env c) := by
  apply (connectionWipe_owning c).bind
  intro _
  apply (Owning.of_unlocked (test_calm .allocated).unlocked).bind
  intro allocated
  cases allocated with
  | false => exact Owning.of_unlocked (Unlocked.done false)
  | true =>
    apply (connectionInit_owning c).bind
    intro _
    apply (Owning.of_unlocked henv).bind
    intro _
    exact Owning.of_unlocked (test_calm .succeeded).unlocked

theorem connFreeCB_unlocked (c : ℕ) : Unlocked (connFreeCB env c) := by
  apply henv.bind
  intro _
  exact changeState_unlocked c

/-- An entry of the cache is the thread's own. -/
theorem cacheGetEntry_wp (own : List ℕ) :
    eventLockDiscipline.Wp (cacheGetEntry env) ⟨[], own⟩ fun entry v => v = ⟨[], entry.toList ++ own⟩ := by
  intro entry
  refine ⟨False.elim, fun _ => ?_⟩
  cases entry with
  | none => rfl
  | some c =>
    refine ⟨trivial, ?_⟩
    change eventLockDiscipline.Wp (test .kept >>= _) ⟨[], c :: own⟩ _
    apply Wp.bind
    apply Wp.weaken ((test_calm .kept).unlocked (c :: own))
    intro kept v hv
    rw [hv]
    cases kept with
    | true => rfl
    | false =>
      apply Wp.bind
      apply Wp.weaken (connAllocCB_owning henv c own)
      intro ok v hv
      rw [hv]
      cases ok with
      | true => rfl
      | false =>
        refine ⟨trivial, ?_⟩
        show LockView.next ⟨[], c :: own⟩ (.recycle c) = ⟨[], own⟩
        simp [LockView.next]

theorem connAllocEx_unlocked : Unlocked (connAllocEx env) := by
  apply Unlocked.bind (test_calm .allocated).unlocked
  intro allocated
  apply Unlocked.ite _ (Unlocked.done none)
  intro own
  apply Wp.bind
  apply (cacheGetEntry_wp henv own).weaken
  intro entry v hv
  rw [hv]
  cases entry with
  | none => rfl
  | some c =>
    apply (Owning.write .state own).bind
    intro _
    apply Moves.bind (t := ⟨[], own⟩) (Moves.act trivial (by simp [eventLockDiscipline, LockView.next]))
    intro _
    exact Moves.done (some c)

/-- The conn goes back into the cache, or is freed. -/
theorem cacheReturnEntry_moves (c : ℕ) (own : List ℕ) :
    eventLockDiscipline.Moves ⟨[], c :: own⟩ ⟨[], own⟩ (cacheReturnEntry env c) := by
  apply (Owning.of_unlocked (test_calm .kept).unlocked own).bind
  intro kept
  apply (Owning.of_unlocked (Unlocked.onlyIf _ (connFreeCB_unlocked henv c)) own).bind
  intro _
  exact Moves.act trivial (by simp [eventLockDiscipline, LockView.next])

/-- **A conn that is freed (proved).** From `ConnListRemove` on the thread clears the conn without its lock. -/
theorem connFreeFinish_unlocked (c : ℕ) : Unlocked (connFreeFinish env c) := by
  intro own
  apply Moves.bind (t := ⟨[], c :: own⟩) (Moves.act trivial rfl)
  intro _
  apply (Owning.of_unlocked (isListener_calm c).unlocked own).bind
  intro listener
  apply (Owning.of_unlocked (Unlocked.onlyIf _ (synchronousConnectEventRemove_unlocked c).ignored) own).bind
  intro _
  apply (Owning.of_unlocked henv own).bind
  intro _
  apply (connectionInit_owning c own).bind
  intro _
  exact cacheReturnEntry_moves henv c own

/-! ### Queueing -/

theorem eventEnqueue_unlocked (c : ℕ) (connEvent : Option ConnEventType) : Unlocked (eventEnqueue env c connEvent) := by
  apply Unlocked.acquire
  apply Releases.bind (queueingPermitted_calm c).under
  intro permitted
  apply Releases.ite
  · apply Releases.bind (connState_calm c).under
    intro state
    apply Releases.bind (Under.onlyIf _ (connChangeState_under c))
    intro _
    apply Releases.bind (enqueueWithInserted_under env c connEvent)
    intro _
    apply Releases.bind (test_calm .waitForSubmit).under
    intro waitForSubmit
    apply Releases.bind (Under.onlyIf _ (connEventsProcess_under henv c none).ignored)
    intro _
    exact Releases.returned true
  · exact Releases.returned false

omit henv in
theorem eventEnqueueFailure_unlocked (env : Env) (c : ℕ) : Unlocked (eventEnqueueFailure env c) := by
  apply Unlocked.acquire
  apply Releases.bind (queueingPermitted_calm c).under
  intro permitted
  have habort : Under c (connState c >>= fun state =>
      onlyIf (state ≠ ConnState.asynchronousClient) (connChangeState c) >>= fun _ => eventQueueAbort env .other c) := by
    apply Under.bind (connState_calm c).under
    intro state
    apply Under.bind (Under.onlyIf _ (connChangeState_under c))
    intro _
    exact eventQueueAbort_under env c
  apply Releases.bind (Under.onlyIf permitted habort)
  intro _
  exact Releases.last

theorem eventsSubmit_unlocked (c : ℕ) : Unlocked (eventsSubmit env c) := by
  apply Unlocked.acquire
  apply Releases.bind (submitProblem_calm c).under
  intro err
  apply Releases.ite (Releases.returned false)
  apply Releases.bind (Under.onlyIf _ (setAsyncProblem_under c).ignored)
  intro _
  apply Releases.bind (connChangeState_under c)
  intro _
  apply Releases.bind (connEventsProcess_under henv c none)
  intro _
  exact Releases.returned true

theorem eventEnqueueOrFree_unlocked (c : ℕ) (type : ConnEventType) : Unlocked (eventEnqueueOrFree env c type) := by
  apply Unlocked.bind (eventEnqueue_unlocked henv c (some type))
  intro queued
  apply Unlocked.ite (Unlocked.done true)
  apply Unlocked.bind (connEventFreeResources_unlocked henv)
  intro _
  exact Unlocked.done false

theorem queueEvent_unlocked (c : ℕ) (type : ConnEventType) : Unlocked (queueEvent env c type) := by
  apply Unlocked.bind (test_calm .allocated).unlocked
  intro allocated
  apply Unlocked.ite _ (eventEnqueueFailure_unlocked env c)
  apply Unlocked.bind (eventEnqueueOrFree_unlocked henv c type)
  intro queued
  exact Unlocked.ite (Unlocked.done ()) (eventEnqueueFailure_unlocked env c)

theorem queueUnlessShuttingDown_unlocked (c : ℕ) (type : ConnEventType) :
    Unlocked (queueUnlessShuttingDown env c type) := by
  apply Unlocked.bind (test_calm .shuttingDown).unlocked
  intro shuttingDown
  exact Unlocked.ite (eventEnqueueFailure_unlocked env c) (queueEvent_unlocked henv c type)

/-! ### The places that go wrong -/

omit henv in
/-- **A synchronous listener is closed under its own lock (proved).** The caller has the lock that
`synchronousListenerClose` takes. -/
theorem synchronousListenerClose_doomed (c : ℕ) (own : List ℕ) :
    eventLockDiscipline.Doomed (synchronousListenerClose c) ⟨[c], own⟩ :=
  Or.inl (by simp [eventLockDiscipline, LockView.Allowed])

omit henv in
theorem asynchronousListenerShutdown_calm (c : ℕ) : Calm (asynchronousListenerShutdown c) := by
  apply (slot_calm .connect c).bind
  intro connect
  apply Calm.onlyIf
  exact (connState_calm c).bind fun _ => Calm.done ()

omit henv in
theorem spared_calm (cllist : Bool) : Calm (spared cllist) :=
  Calm.ite ((test_calm .childOfListener).bind fun _ => Calm.done _) (Calm.done false)

omit henv in
/-- The conns of a list are visited under their locks; only a synchronous listener goes wrong. -/
theorem visit_under {k : ConnState → Locking Unit} (hlistener : k .synchronousListener = synchronousListenerClose c)
    (hk : ∀ state, state ≠ .synchronousListener → Under c (k state)) :
    Under c (asking (.state .handleConnections c) >>= k) := by
  intro own
  apply Moves.queryThen
  · intro state hstate
    have hstate : state = ConnState.synchronousListener := hstate
    rw [hstate, hlistener]
    exact synchronousListenerClose_doomed c own
  · intro state hstate
    exact hk state hstate own

omit henv in
theorem abortConn_under (env : Env) (cllist : Bool) (c : ℕ) : Under c (abortConn env cllist c) := by
  apply visit_under rfl
  intro state hstate
  cases state with
  | synchronousListener => exact absurd rfl hstate
  | asynchronousListener => exact (asynchronousListenerShutdown_calm c).under
  | asynchronousEngine | asynchronousClient =>
    apply Under.bind (spared_calm cllist).under
    intro sparedConn
    exact Under.onlyIf _ (eventQueueAbort_under env c)
  | _ => exact Under.done ()

omit henv in
theorem closeConn_under (c : ℕ) : Under c (closeConn c) := by
  apply visit_under rfl
  intro state hstate
  cases state with
  | synchronousListener => exact absurd rfl hstate
  | asynchronousListener => exact (asynchronousListenerShutdown_calm c).under
  | _ => exact Under.done ()

omit henv in
/-- A write without a lock, of a conn that other threads can reach. -/
theorem write_not_allowed {own : List ℕ} (hown : c ∉ own) (field : GuardedField) :
    ¬ eventLockDiscipline.allowed ⟨[], own⟩ (.write c field) := by
  intro hallowed
  cases hallowed with
  | inl hheld => cases hheld
  | inr hmem => exact hown hmem

omit henv in
/-- **The first asynchronous write of a transaction changes the state without the lock (proved).** -/
theorem beginTransaction_unlocked (c : ℕ) : Unlocked (beginTransaction c) := by
  intro own
  apply Moves.queryThen
  · intro state hexcuse
    have hexcuse : state = ConnState.idle ∧ c ∉ own := hexcuse
    rw [hexcuse.1]
    exact Or.inl (write_not_allowed hexcuse.2 .state)
  · intro (state : ConnState) hnot
    have hnot : ¬ (state = ConnState.idle ∧ c ∉ own) := hnot
    apply Moves.onlyIf'
    intro hidle
    have hmem : c ∈ own := by
      by_contra hown
      exact hnot ⟨of_decide_eq_true hidle, hown⟩
    exact Moves.act (Or.inr hmem) rfl

omit henv in
/-- **A large write that cannot be queued aborts the queue without the lock (proved).** -/
theorem largeBufferAbort_unlocked (env : Env) (c : ℕ) : Unlocked (eventQueueAbort env .writeFromBuffer c) := by
  intro own (problem : Bool)
  constructor
  · intro hexcuse
    have hexcuse : problem = false ∧ c ∉ own := hexcuse
    rw [hexcuse.1]
    exact Or.inl (write_not_allowed hexcuse.2 .problem)
  · intro hnot
    have hnot : ¬ (problem = false ∧ c ∉ own) := hnot
    cases problem with
    | true => exact Moves.done ()
    | false =>
      have hmem : c ∈ own := by
        by_contra hown
        exact hnot ⟨rfl, hown⟩
      have habort : Writes c (act (.write c .problem) >>= fun _ =>
          cancelQueuedEvents c env.rounds >>= fun _ => cancelEventsInProgress c) :=
        (Writes.write .problem).bind fun _ => cancelEvents_writes c env.rounds
      exact habort ⟨[], own⟩ (Or.inr hmem)

/-! ### Conns that are torn down, and listeners -/

omit henv in
theorem synchronousListenerClose_unlocked (c : ℕ) : Unlocked (synchronousListenerClose c) := changeState_unlocked c

omit henv in
theorem connKillEx_unlocked (env : Env) (c : ℕ) : Unlocked (connKillEx env c) := by
  apply Unlocked.acquire
  apply Releases.bind (connState_calm c).under
  intro state
  cases state with
  | asynchronousEngineComplete | asynchronousEngine | asynchronousClient =>
    apply Releases.bind (eventQueueAbort_under env c)
    intro _
    exact Releases.returned true
  | _ => exact Releases.returned _

omit henv in
theorem forEachConn_unlocked {visit : ℕ → Locking Unit} (hvisit : ∀ c, Unlocked (visit c)) :
    ∀ n, Unlocked (forEachConn visit n)
  | 0 => Unlocked.cut
  | n + 1 => by
    apply Unlocked.bind nextConn_calm.unlocked
    intro next
    cases next with
    | none => exact Unlocked.done ()
    | some c => exact (hvisit c).bind fun _ => forEachConn_unlocked hvisit n

omit henv in
theorem handleConnectionsAbortEx_unlocked (env : Env) (cllist : Bool) :
    Unlocked (handleConnectionsAbortEx env cllist) :=
  forEachConn_unlocked (fun c => Unlocked.locked (abortConn_under env cllist c)) env.rounds

theorem handleConnectionsCloseEx_unlocked : Unlocked (handleConnectionsCloseEx env) := by
  apply forEachConn_unlocked
  intro c
  have htaken : Unlocked (shutdownCallback env) := by
    apply Unlocked.bind (test_calm .shutdownCallback).unlocked
    intro callback
    apply Unlocked.ite _ (Unlocked.done false)
    exact henv.bind fun _ => (test_calm .succeeded).unlocked
  apply htaken.bind
  intro taken
  exact Unlocked.onlyIf _ (Unlocked.locked (closeConn_under c))

theorem shutdownEx_unlocked (cllist : Bool) : Unlocked (shutdownEx env cllist) := by
  apply Unlocked.bind (test_calm .succeeded).unlocked
  intro quiet
  apply Unlocked.onlyIf
  apply Unlocked.bind (handleConnectionsAbortEx_unlocked env cllist)
  intro _
  apply Unlocked.bind (test_calm .succeeded).unlocked
  intro quiet'
  exact Unlocked.onlyIf _ (handleConnectionsCloseEx_unlocked henv)

theorem cacheAlloc_unlocked : Unlocked (cacheAlloc env) := by
  apply forEachConn_unlocked
  intro c own
  apply Moves.bind (t := ⟨[], c :: own⟩) (Moves.act trivial rfl)
  intro _
  apply (connAllocCB_owning henv c own).bind
  intro _
  exact Moves.act trivial (by simp [eventLockDiscipline, LockView.next])

theorem connHandleFree_unlocked : Unlocked (connHandleFree env) := by
  have hclose : Unlocked (closeHandleConnections env) :=
    forEachConn_unlocked (fun c => (connKillEx_unlocked env c).ignored) env.rounds
  apply hclose.bind
  intro _
  exact forEachConn_unlocked (connFreeCB_unlocked henv) env.rounds

theorem implicitEvent_unlocked (t : LockTest) (type : ConnEventType) :
    Unlocked (test t >>= fun b => onlyIf b (eventProcess env (pure ()) type >>= fun _ => pure ())) := by
  apply Unlocked.bind (test_calm t).unlocked
  intro b
  exact Unlocked.onlyIf b (eventProcess_plain_unlocked henv type).ignored

theorem connFreeEx_unlocked (c : ℕ) : Unlocked (connFreeEx env c) := by
  have hfinish : Unlocked (connFreeFinish env c >>= fun _ => pure true) :=
    (connFreeFinish_unlocked henv c).bind fun _ => Unlocked.done true
  apply Unlocked.bind (connState_calm c).unlocked
  intro state
  apply Unlocked.ite (Unlocked.done false)
  apply Unlocked.bind (isListener_calm c).unlocked
  intro listener
  apply Unlocked.ite hfinish
  apply Unlocked.bind (synchronousConnectEventInsert_unlocked c)
  intro inserted
  apply Unlocked.ite _ (Unlocked.done false)
  apply Unlocked.bind (test_calm .socketOpen).unlocked
  intro openSocket
  have himplicit : Unlocked (implicitFlushOnConnectEvent env >>= fun _ => implicitSSLDisconnectOnConnectEvent env) :=
    (implicitEvent_unlocked henv .buffered .flush).bind fun _ => implicitEvent_unlocked henv .secured .sslDisconnect
  apply Unlocked.bind (Unlocked.onlyIf _ himplicit)
  intro _
  exact hfinish

/-- A conn that is given up. -/
theorem connFreeEx_ignored (c : ℕ) : Unlocked (connFreeEx env c >>= fun _ => pure ()) :=
  (connFreeEx_unlocked henv c).ignored

theorem newConn_unlocked {k : ℕ → Locking Unit} (hk : ∀ c, Unlocked (k c)) :
    Unlocked (connAllocEx env >>= fun conn =>
      match conn with
      | none => pure ()
      | some c => k c) := by
  apply (connAllocEx_unlocked henv).bind
  intro conn
  cases conn with
  | none => exact Unlocked.done ()
  | some c => exact hk c

theorem connListenEx_unlocked : Unlocked (connListenEx env) := by
  apply newConn_unlocked henv
  intro c
  apply Unlocked.bind (test_calm .succeeded).unlocked
  intro listening
  exact Unlocked.ite (changeState_unlocked c) (connFreeEx_ignored henv c)

omit henv in
theorem connCloseListenerEx_unlocked (c : ℕ) : Unlocked (connCloseListenerEx c) := by
  apply Unlocked.bind (connState_calm c).unlocked
  intro state
  exact Unlocked.ite (synchronousListenerClose_unlocked c) (Unlocked.done ())

theorem listenEvent_unlocked (c : ℕ) : Unlocked (listenEvent env c) := by
  apply Unlocked.bind (test_calm .allocated).unlocked
  intro allocated
  apply Unlocked.ite _ (Unlocked.done false)
  apply Unlocked.acquire
  apply Releases.bind (connChangeState_under c)
  intro _
  apply Releases.bind (connEventInProgressSet_under c)
  intro _
  apply Releases.release
  apply Unlocked.bind (test_calm .succeeded).unlocked
  intro waiting
  apply Unlocked.ite (Unlocked.done true)
  apply Unlocked.acquire
  apply Releases.bind (connEventInProgressClear_under c)
  intro _
  apply Releases.bind (connChangeState_under c)
  intro _
  apply Releases.release
  apply Unlocked.bind (connEventFreeResources_unlocked henv)
  intro _
  exact Unlocked.done false

theorem connAListenEx_unlocked : Unlocked (connAListenEx env) := by
  apply Unlocked.bind (test_calm .asyncEnabled).unlocked
  intro asyncEnabled
  apply Unlocked.bind (test_calm .shuttingDown).unlocked
  intro shuttingDown
  apply Unlocked.bind (test_calm .newListenersAllowed).unlocked
  intro allowed
  apply Unlocked.onlyIf
  apply newConn_unlocked henv
  intro c
  apply Unlocked.bind (test_calm .succeeded).unlocked
  intro listening
  apply Unlocked.ite _ (connFreeEx_ignored henv c)
  apply (listenEvent_unlocked henv c).bind
  intro waiting
  exact Unlocked.ite (Unlocked.done ()) (connFreeEx_ignored henv c)

theorem connAStartListenerEx_unlocked : ∀ n, Unlocked (connAStartListenerEx env n)
  | 0 => Unlocked.cut
  | n + 1 => by
    apply Unlocked.bind (test_calm .again).unlocked
    intro again
    apply Unlocked.ite _ (Unlocked.done ())
    exact (connAListenEx_unlocked henv).bind fun _ => connAStartListenerEx_unlocked n

theorem connARestartListenerEx_unlocked (c : ℕ) : Unlocked (connARestartListenerEx env c) := by
  apply (connAStartListenerEx_unlocked henv env.rounds).bind
  intro _
  apply Unlocked.bind (test_calm .succeeded).unlocked
  intro started
  exact Unlocked.onlyIf _ (asynchronousListenerShutdown_calm c).unlocked

theorem connAListenerCallback_unlocked (c : ℕ) : Unlocked (connAListenerCallback env c) := by
  apply (connFreeEx_unlocked henv c).bind
  intro _
  apply Unlocked.bind (test_calm .again).unlocked
  intro again
  exact Unlocked.onlyIf _ (connAStartListenerEx_unlocked henv env.rounds)

theorem connAcceptEx_unlocked : Unlocked (connAcceptEx env) := by
  apply newConn_unlocked henv
  intro c
  apply Unlocked.bind (test_calm .succeeded).unlocked
  intro accepted
  exact Unlocked.ite (Unlocked.done ()) (connFreeEx_ignored henv c)

end Consumer

end EventLock

end Connio
