import Connio.EventLockApi

/-!
# Who keeps the event lock

A function is `Unlocked` when it neither begins nor ends with an event lock, `Under c` when its caller holds the lock of `c`
before and after, `Releases c` from a point on where that lock is held and will be given back, and `Takes c` the other way
round. One lemma for each function of the source says which it is; a function whose caller "must hold the event lock" is
`Under`.
-/

namespace Connio

namespace EventLock

open Lib Lib.Discipline
open Lib.Dialogue (act onlyIf cut)

variable {α β : Type} {c : ℕ} {p q : Locking α} {k : α → Locking β}

/-- The thread has no event lock before and after. -/
def Unlocked (p : Locking α) : Prop := ∀ own, eventLockDiscipline.Moves ⟨[], own⟩ ⟨[], own⟩ p

/-- The thread has the event lock of `c` before and after, and no other. -/
def Under (c : ℕ) (p : Locking α) : Prop := ∀ own, eventLockDiscipline.Moves ⟨[c], own⟩ ⟨[c], own⟩ p

/-- The thread has the event lock of `c`, and none when it is through. -/
def Releases (c : ℕ) (p : Locking α) : Prop := ∀ own, eventLockDiscipline.Moves ⟨[c], own⟩ ⟨[], own⟩ p

/-- The thread has no event lock, and that of `c` when it is through. -/
def Takes (c : ℕ) (p : Locking α) : Prop := ∀ own, eventLockDiscipline.Moves ⟨[], own⟩ ⟨[c], own⟩ p

/-- The program writes guarded fields of `c`, whose lock the thread has, or which no other thread can reach. -/
def Writes (c : ℕ) (p : Locking α) : Prop :=
  ∀ v : LockView, c ∈ v.held ∨ c ∈ v.own → eventLockDiscipline.Moves v v p

/-- The program reads only. -/
def Calm (p : Locking α) : Prop := ∀ v, eventLockDiscipline.Moves v v p

/-! ### Programs that read -/

namespace Calm

theorem done (a : α) : Calm (pure a : Locking α) := fun _ => Moves.done a

theorem asking {q : Question} (h : ∀ v a, ¬ eventLockDiscipline.excuse v q a) : Calm (asking q) :=
  fun v => Moves.query (h v)

theorem bind (h : Calm p) (hk : ∀ a, Calm (k a)) : Calm (p >>= k) := fun v => (h v).bind fun a => hk a v

theorem unlocked (h : Calm p) : Unlocked p := fun _ => h _

theorem under (h : Calm p) : Under c p := fun _ => h _

theorem writes (h : Calm p) : Writes c p := fun _ _ => h _

theorem ite {P : Prop} [Decidable P] (hp : Calm p) (hq : Calm q) : Calm (if P then p else q) := by
  split
  · exact hp
  · exact hq

theorem onlyIf {p : Locking Unit} (b : Bool) (h : Calm p) : Calm (Dialogue.onlyIf b p) :=
  fun v => Moves.onlyIf b (h v)

end Calm

theorem test_calm (t : LockTest) : Calm (test t) := Calm.asking fun _ _ => id

theorem connState_calm (c : ℕ) : Calm (connState c) := Calm.asking fun _ _ => id

theorem problemSet_calm (c : ℕ) : Calm (problemSet .other c) := Calm.asking fun _ _ => id

theorem slot_calm (cls : ConnEventClass) (c : ℕ) : Calm (slot cls c) := Calm.asking fun _ _ => id

theorem queueHead_calm (c : ℕ) : Calm (queueHead c) := Calm.asking fun _ _ => id

theorem processOutcome_calm : Calm processOutcome := Calm.asking fun _ _ => id

theorem nextConn_calm : Calm nextConn := Calm.asking fun _ _ => id

theorem bufferSize_calm : Calm bufferSize := Calm.asking fun _ _ => id

theorem connEventsInProgress_calm (c : ℕ) : Calm (connEventsInProgress c) := by
  apply (slot_calm .connect c).bind
  intro connect
  apply Calm.ite (Calm.done true)
  apply (slot_calm .receive c).bind
  intro receive
  exact Calm.ite (Calm.done true) (slot_calm .send c)

theorem cancelEventsInProgress_calm (c : ℕ) : Calm (cancelEventsInProgress c) := by
  apply (connEventsInProgress_calm c).bind
  intro busy
  apply Calm.onlyIf
  apply (test_calm .socketOpen).bind
  intro openSocket
  apply Calm.onlyIf
  apply (slot_calm .connect c).bind
  intro connect
  apply Calm.onlyIf
  apply (slot_calm .send c).bind
  intro _
  apply (slot_calm .receive c).bind
  intro _
  exact Calm.done ()

/-! ### One step, and a program after another -/

section Steps

variable {c : ℕ} {u : Locking Unit} {f : Unit → Locking α}

namespace Writes

theorem done (a : α) : Writes c (pure a : Locking α) := fun _ _ => Moves.done a

theorem cut : Writes c (Dialogue.cut : Locking α) := fun _ _ => Moves.cut

theorem bind (h : Writes c p) (hk : ∀ a, Writes c (k a)) : Writes c (p >>= k) :=
  fun v hv => (h v hv).bind fun a => hk a v hv

theorem onlyIf (b : Bool) (h : Writes c u) : Writes c (Dialogue.onlyIf b u) := fun v hv => Moves.onlyIf b (h v hv)

theorem write (field : GuardedField) : Writes c (act (.write c field)) := fun _ hv => Moves.act hv rfl

theorem under (h : Writes c p) : Under c p := fun _ => h _ (Or.inl (List.mem_singleton.mpr rfl))

end Writes

namespace Unlocked

theorem done (a : α) : Unlocked (pure a : Locking α) := fun _ => Moves.done a

theorem cut : Unlocked (Dialogue.cut : Locking α) := fun _ => Moves.cut

theorem bind (h : Unlocked p) (hk : ∀ a, Unlocked (k a)) : Unlocked (p >>= k) :=
  fun own => (h own).bind fun a => hk a own

theorem ite {P : Prop} [Decidable P] (hp : Unlocked p) (hq : Unlocked q) : Unlocked (if P then p else q) := by
  split
  · exact hp
  · exact hq

theorem onlyIf (b : Bool) (h : Unlocked u) : Unlocked (Dialogue.onlyIf b u) := fun own => Moves.onlyIf b (h own)

/-- A program whose result is not used. -/
theorem ignored (h : Unlocked p) : Unlocked (p >>= fun _ => pure ()) := h.bind fun _ => done ()

theorem acquire (h : Releases c (f ())) : Unlocked (eventLockAcquire c >>= f) := by
  intro own
  apply Moves.bind (Moves.act (by simp [eventLockDiscipline, LockView.Allowed]) rfl)
  intro _
  exact h own

end Unlocked

namespace Under

theorem done (a : α) : Under c (pure a : Locking α) := fun _ => Moves.done a

theorem cut : Under c (Dialogue.cut : Locking α) := fun _ => Moves.cut

theorem bind (h : Under c p) (hk : ∀ a, Under c (k a)) : Under c (p >>= k) :=
  fun own => (h own).bind fun a => hk a own

theorem ite {P : Prop} [Decidable P] (hp : Under c p) (hq : Under c q) : Under c (if P then p else q) := by
  split
  · exact hp
  · exact hq

theorem onlyIf (b : Bool) (h : Under c u) : Under c (Dialogue.onlyIf b u) := fun own => Moves.onlyIf b (h own)

theorem ignored (h : Under c p) : Under c (p >>= fun _ => pure ()) := h.bind fun _ => done ()

end Under

namespace Releases

theorem bind (h : Under c p) (hk : ∀ a, Releases c (k a)) : Releases c (p >>= k) :=
  fun own => (h own).bind fun a => hk a own

theorem ite {P : Prop} [Decidable P] (hp : Releases c p) (hq : Releases c q) : Releases c (if P then p else q) := by
  split
  · exact hp
  · exact hq

theorem release (h : Unlocked (f ())) : Releases c (eventLockRelease c >>= f) := by
  intro own
  apply Moves.bind (t := ⟨[], own⟩) (Moves.act trivial (by simp [eventLockDiscipline, LockView.next]))
  intro _
  exact h own

/-- The lock is given back at the end. -/
theorem last : Releases c (eventLockRelease c) :=
  fun _ => Moves.act trivial (by simp [eventLockDiscipline, LockView.next])

theorem returned (a : α) : Releases c (eventLockRelease c >>= fun _ => pure a) := release (Unlocked.done a)

end Releases

namespace Takes

theorem bind (h : Unlocked p) (hk : ∀ a, Takes c (k a)) : Takes c (p >>= k) :=
  fun own => (h own).bind fun a => hk a own

theorem acquire (h : Under c (f ())) : Takes c (eventLockAcquire c >>= f) := by
  intro own
  apply Moves.bind (Moves.act (by simp [eventLockDiscipline, LockView.Allowed]) rfl)
  intro _
  exact h own

/-- The lock is given up for a while. -/
theorem released (h : Takes c (f ())) : Under c (eventLockRelease c >>= f) := by
  intro own
  apply Moves.bind (t := ⟨[], own⟩) (Moves.act trivial (by simp [eventLockDiscipline, LockView.next]))
  intro _
  exact h own

end Takes

/-- A critical section. -/
theorem Unlocked.locked (h : Under c u) : Unlocked (eventLockAcquire c >>= fun _ => u >>= fun _ => eventLockRelease c) :=
  Unlocked.acquire (Releases.bind h fun _ => Releases.last)

end Steps

/-! ### The synchronous events -/

theorem connChangeState_under (c : ℕ) : Under c (connChangeState c) := (Writes.write .state).under

theorem connEventInProgressSet_under (c : ℕ) : Under c (connEventInProgressSet c) :=
  (Writes.write .activeEvent).under

theorem connEventInProgressClear_under (c : ℕ) : Under c (connEventInProgressClear c) :=
  (Writes.write .activeEvent).under

/-- Two fields are written, and the lock is given back. -/
theorem writeBoth_releases {u v : Locking Unit} (a : α) (hu : Under c u) (hv : Under c v) :
    Releases c (u >>= fun _ => v >>= fun _ => eventLockRelease c >>= fun _ => pure a) := by
  apply Releases.bind hu
  intro _
  apply Releases.bind hv
  intro _
  exact Releases.returned a

theorem synchronousConnectEventInsert_unlocked (c : ℕ) : Unlocked (synchronousConnectEventInsert c) := by
  apply Unlocked.acquire
  apply Releases.bind (connState_calm c).under
  intro state
  apply Releases.ite
  · apply Releases.bind (connEventsInProgress_calm c).under
    intro busy
    apply Releases.ite (Releases.returned false)
    exact writeBoth_releases true (connChangeState_under c) (connEventInProgressSet_under c)
  · exact Releases.returned false

theorem synchronousConnectEventRemove_unlocked (c : ℕ) : Unlocked (synchronousConnectEventRemove c) := by
  apply Unlocked.acquire
  apply Releases.bind (connState_calm c).under
  intro state
  apply Releases.ite
  · apply Releases.bind (slot_calm .connect c).under
    intro mine
    apply Releases.ite _ (Releases.returned false)
    exact writeBoth_releases true (connEventInProgressClear_under c) (connChangeState_under c)
  · exact Releases.returned false

theorem synchronousReceiveEventInsert_unlocked (c : ℕ) : Unlocked (synchronousReceiveEventInsert c) := by
  apply Unlocked.acquire
  apply Releases.bind (connState_calm c).under
  intro state
  apply Releases.ite
  · apply Releases.bind (slot_calm .connect c).under
    intro connect
    apply Releases.ite (Releases.returned (false, false))
    apply Releases.bind (slot_calm .receive c).under
    intro receive
    apply Releases.ite (Releases.returned (false, false))
    apply Releases.bind (connChangeState_under c)
    intro _
    apply Releases.bind (test_calm .buffered).under
    intro flush
    apply Releases.bind (connEventInProgressSet_under c)
    intro _
    exact Releases.returned (true, flush)
  · exact Releases.returned (false, false)

theorem synchronousReceiveEventRemove_unlocked (c : ℕ) (haveConnectLock : Bool) :
    Unlocked (synchronousReceiveEventRemove c haveConnectLock) := by
  apply Unlocked.acquire
  apply Releases.bind (connState_calm c).under
  intro state
  apply Releases.ite
  · apply Releases.bind (slot_calm _ c).under
    intro mine
    apply Releases.ite _ (Releases.returned false)
    exact writeBoth_releases true (connEventInProgressClear_under c) (connChangeState_under c)
  · exact Releases.returned false

theorem synchronousSendEventInsert_unlocked (c : ℕ) : Unlocked (synchronousSendEventInsert c) := by
  apply Unlocked.acquire
  apply Releases.bind (connState_calm c).under
  intro state
  apply Releases.ite
  · apply Releases.bind (slot_calm .connect c).under
    intro connect
    apply Releases.ite (Releases.returned false)
    apply Releases.bind (slot_calm .send c).under
    intro send
    apply Releases.ite (Releases.returned false)
    exact writeBoth_releases true (connChangeState_under c) (connEventInProgressSet_under c)
  · exact Releases.returned false

theorem synchronousSendEventRemove_unlocked (c : ℕ) : Unlocked (synchronousSendEventRemove c) := by
  apply Unlocked.acquire
  apply Releases.bind (connState_calm c).under
  intro state
  apply Releases.ite
  · apply Releases.bind (slot_calm .send c).under
    intro mine
    apply Releases.ite _ (Releases.returned false)
    apply Releases.bind (connEventInProgressClear_under c)
    intro _
    apply Releases.bind (slot_calm .receive c).under
    intro receive
    apply Releases.bind (Under.onlyIf _ (connChangeState_under c))
    intro _
    exact Releases.returned true
  · exact Releases.returned false

/-! ### The queue, whose callers hold the event lock -/

theorem connEventFreeListAdd_under (c : ℕ) : Under c (connEventFreeListAdd c) := (Writes.write .freeList).under

theorem eventQueueAppendEvent_under (c : ℕ) : Under c (eventQueueAppendEvent c) := (Writes.write .queue).under

theorem getNextEnqueuedEvent_writes (cls : Option ConnEventClass) (c : ℕ) :
    Writes c (getNextEnqueuedEvent cls c) := by
  apply Writes.bind (Calm.asking fun _ _ => id).writes
  intro event
  apply Writes.bind (Writes.onlyIf _ (Writes.write .queue))
  intro _
  exact Writes.done event

theorem getNextEnqueuedEvent_under (cls : Option ConnEventClass) (c : ℕ) : Under c (getNextEnqueuedEvent cls c) :=
  (getNextEnqueuedEvent_writes cls c).under

theorem cancelQueuedEvents_writes (c : ℕ) : ∀ n, Writes c (cancelQueuedEvents c n)
  | 0 => Writes.cut
  | n + 1 => by
    apply Writes.bind (getNextEnqueuedEvent_writes none c)
    intro event
    cases event with
    | none => exact Writes.done ()
    | some event =>
      apply Writes.bind (Writes.write .freeList)
      intro _
      exact cancelQueuedEvents_writes c n

/-- What the first problem of a transaction leads to. -/
theorem cancelEvents_writes (c n : ℕ) : Writes c (cancelQueuedEvents c n >>= fun _ => cancelEventsInProgress c) :=
  (cancelQueuedEvents_writes c n).bind fun _ => (cancelEventsInProgress_calm c).writes

theorem setAsyncProblem_under (c : ℕ) : Under c (setAsyncProblem .other c) := by
  apply Under.bind (problemSet_calm c).under
  intro problem
  apply Under.ite (Under.done false)
  apply Under.bind (Writes.write .problem).under
  intro _
  exact Under.done true

theorem eventQueueAbort_under (env : Env) (c : ℕ) : Under c (eventQueueAbort env .other c) := by
  apply Under.bind (setAsyncProblem_under c)
  intro first
  exact Under.onlyIf first (cancelEvents_writes c env.rounds).under

theorem connEventNext_under (c : ℕ) : Under c (connEventNext c) := by
  apply Under.bind (problemSet_calm c).under
  intro problem
  apply Under.ite (Under.done none)
  apply Under.bind (queueHead_calm c).under
  intro head
  apply Under.ite (Under.done none)
  apply Under.bind (slot_calm .connect c).under
  intro connect
  apply Under.ite (Under.done none)
  apply Under.bind (slot_calm .receive c).under
  intro receive
  apply Under.ite
  · apply Under.bind (slot_calm .send c).under
    intro send
    exact Under.ite (Under.done none) (getNextEnqueuedEvent_under (some .send) c)
  · apply Under.bind (slot_calm .send c).under
    intro send
    exact Under.ite (getNextEnqueuedEvent_under (some .receive) c) (getNextEnqueuedEvent_under none c)

theorem eventToProcess_under (c : ℕ) (connEvent : Option LockEvent) : Under c (eventToProcess c connEvent) := by
  cases connEvent with
  | some event => exact Under.done (some event)
  | none =>
    apply Under.bind (connEventNext_under c)
    intro event
    cases event with
    | none => exact Under.done none
    | some event =>
      apply Under.bind (connEventInProgressSet_under c)
      intro _
      exact Under.done (some event)

theorem handleErrors_under (env : Env) (c : ℕ) (event : LockEvent) (status : ConnEventStatus) :
    Under c (handleErrors env c event status) := by
  apply Under.bind (problemSet_calm c).under
  intro problem
  apply Under.ite (Under.done ())
  apply Under.ite (eventQueueAbort_under env c)
  apply Under.ite (setAsyncProblem_under c).ignored
  apply Under.bind (test_calm .shuttingDown).under
  intro shuttingDown
  exact Under.onlyIf _ (eventQueueAbort_under env c)

theorem eventOver_under (env : Env) (c : ℕ) (event : LockEvent) (status : ConnEventStatus) :
    Under c (eventOver env c event status) := by
  apply Under.bind (connEventInProgressClear_under c)
  intro _
  apply Under.bind (handleErrors_under env c event status)
  intro _
  exact connEventFreeListAdd_under c

theorem queueingPermitted_calm (c : ℕ) : Calm (queueingPermitted c) := by
  apply (connState_calm c).bind
  intro state
  cases state <;> exact Calm.done _

theorem submitProblem_calm (c : ℕ) : Calm (submitProblem c) := by
  apply (connState_calm c).bind
  intro state
  cases state <;> exact Calm.done _

theorem eventEngineQueueAdd_under (c : ℕ) (type : ConnEventType) : Under c (eventEngineQueueAdd c type) := by
  apply Under.bind (problemSet_calm c).under
  intro problem
  apply Under.ite (connEventFreeListAdd_under c)
  apply Under.bind (test_calm .shuttingDown).under
  intro shuttingDown
  apply Under.ite (eventQueueAppendEvent_under c)
  apply Under.ite (eventQueueAppendEvent_under c)
  apply Under.bind (setAsyncProblem_under c)
  intro _
  exact connEventFreeListAdd_under c

theorem insertEvent_under (env : Env) (c : ℕ) (type : ConnEventType) : Under c (insertEvent env c type) := by
  apply Under.bind (test_calm .allocated).under
  intro allocated
  exact Under.ite (eventEngineQueueAdd_under c type) (eventQueueAbort_under env c)

theorem enqueueWithInserted_under (env : Env) (c : ℕ) (connEvent : Option ConnEventType) :
    Under c (enqueueWithInserted env c connEvent) := by
  cases connEvent with
  | none => exact Under.done ()
  | some type =>
    have hflush : Calm (flushAEventNeeded type) := Calm.ite (Calm.done false) (test_calm .buffered)
    have hssl : Calm (sslDisconnectEventNeeded type) := Calm.ite (test_calm .sslDisconnectNeeded) (Calm.done false)
    apply Under.bind hflush.under
    intro flush
    apply Under.bind (Under.onlyIf flush (insertEvent_under env c .flush))
    intro _
    apply Under.bind hssl.under
    intro ssl
    apply Under.bind (Under.onlyIf ssl (insertEvent_under env c .sslDisconnect))
    intro _
    exact eventEngineQueueAdd_under c type

theorem prepareForCallback_under (c : ℕ) : Under c (prepareForCallback c) := by
  apply Under.bind (Writes.write .freeList).under
  intro _
  apply Under.bind (Writes.write .queue).under
  intro _
  apply Under.bind (Writes.write .problem).under
  intro _
  apply Under.bind (Writes.write .freeList).under
  intro _
  exact connChangeState_under c

/-! ### Client data -/

theorem startWriter_unlocked (env : Env) (c : ℕ) : Unlocked (startWriter env c) :=
  Unlocked.onlyIf env.debug (Unlocked.acquire Releases.last)

theorem writeBuffer_unlocked (length : ℕ) : ∀ n transferred, Unlocked (writeBuffer length n transferred)
  | 0, _ => Unlocked.cut
  | n + 1, transferred => by
    apply Unlocked.bind bufferSize_calm.unlocked
    intro bufferSpace
    apply Unlocked.ite (Unlocked.done _)
    exact Unlocked.ite (Unlocked.done _) (writeBuffer_unlocked length n _)

/-- The writer is counted out at the end of a write. -/
theorem endWriter_unlocked (env : Env) (c : ℕ) (a : α) : Unlocked (endWriter env c >>= fun _ => pure a) :=
  (startWriter_unlocked env c).bind fun _ => Unlocked.done a

theorem writeRounds_unlocked {flush failure : Locking Unit} (hflush : Unlocked flush) (hfailure : Unlocked failure)
    (c length : ℕ) : ∀ n transferred, Unlocked (writeRounds env c length flush failure n transferred)
  | 0, _ => Unlocked.cut
  | n + 1, transferred => by
    apply Unlocked.bind (test_calm .bufferAllocated).unlocked
    intro allocated
    apply Unlocked.ite
    · apply Unlocked.bind (writeBuffer_unlocked length env.rounds transferred)
      intro (done, transferred')
      apply Unlocked.ite (endWriter_unlocked env c transferred')
      apply Unlocked.bind hflush
      intro _
      apply Unlocked.bind (test_calm .errnoSet).unlocked
      intro errno
      apply Unlocked.ite (endWriter_unlocked env c transferred')
      exact writeRounds_unlocked hflush hfailure c length n transferred'
    · apply Unlocked.bind hfailure
      intro _
      exact endWriter_unlocked env c transferred

theorem writeClientData_unlocked {start flush failure : Locking Unit} (hstart : Unlocked start)
    (hflush : Unlocked flush) (hfailure : Unlocked failure) (c length : ℕ) :
    Unlocked (writeClientData env c length start flush failure) := by
  apply Unlocked.bind (startWriter_unlocked env c)
  intro _
  apply Unlocked.bind hstart
  intro _
  apply Unlocked.ite
  · exact writeRounds_unlocked hflush hfailure c length env.rounds 0
  · exact endWriter_unlocked env c 0

/-! ### Functions that call the consumer, who finds no event lock held -/

section Consumer

variable {env : Env} (henv : Unlocked env.consumer)

include henv

theorem connEventFreeResources_unlocked : Unlocked (connEventFreeResources env) := by
  apply Unlocked.bind (test_calm .clientBuffer).unlocked
  intro clientBuffer
  exact Unlocked.onlyIf clientBuffer henv

theorem connEventFreeListDestroy_unlocked : ∀ n, Unlocked (connEventFreeListDestroy env n)
  | 0 => Unlocked.cut
  | n + 1 => by
    apply Unlocked.bind (test_calm .moreToFree).unlocked
    intro more
    apply Unlocked.ite _ (Unlocked.done ())
    apply Unlocked.bind (connEventFreeResources_unlocked henv)
    intro _
    exact connEventFreeListDestroy_unlocked n

theorem callbackRounds_unlocked : ∀ n, Unlocked (callbackRounds env n)
  | 0 => Unlocked.cut
  | n + 1 => by
    apply Unlocked.bind henv
    intro _
    apply Unlocked.bind (test_calm .again).unlocked
    intro again
    exact Unlocked.ite (callbackRounds_unlocked n) (Unlocked.done ())

theorem eventProcess_unlocked {toConn : Locking Unit} (htoConn : Unlocked toConn) (type : ConnEventType) :
    Unlocked (eventProcess env toConn type) := by
  have hwork : Unlocked (socketEventProcess env toConn type) := by
    cases type with
    | readToCb | writeFromCb => exact callbackRounds_unlocked henv env.rounds
    | readToConn => exact htoConn
    | writeFromClientBuffer => exact connEventFreeResources_unlocked henv
    | _ => exact Unlocked.done ()
  apply Unlocked.bind hwork
  intro _
  apply Unlocked.bind processOutcome_calm.unlocked
  intro status
  apply Unlocked.bind (Unlocked.onlyIf _ (connEventFreeResources_unlocked henv))
  intro _
  exact Unlocked.done status

/-- An event that neither calls the consumer's callbacks nor writes to another conn. -/
theorem eventProcess_plain_unlocked (type : ConnEventType) : Unlocked (eventProcess env (pure ()) type) :=
  eventProcess_unlocked henv (Unlocked.done ()) type

theorem connFlushSync_unlocked (c : ℕ) : Unlocked (connFlushSync env c) := by
  apply Unlocked.bind (synchronousSendEventInsert_unlocked c)
  intro inserted
  apply Unlocked.onlyIf
  apply Unlocked.bind (eventProcess_plain_unlocked henv .flush)
  intro _
  exact (synchronousSendEventRemove_unlocked c).ignored

theorem connWriteEx_unlocked (c length : ℕ) : Unlocked (connWriteEx env c length) := by
  apply Unlocked.bind (test_calm .shuttingDown).unlocked
  intro shuttingDown
  apply Unlocked.onlyIf
  apply Unlocked.ignored
  exact writeClientData_unlocked (Unlocked.done ()) (connFlushSync_unlocked henv c) (Unlocked.done ()) c length

theorem readToConnProcess_unlocked (dest : ℕ) : ∀ n, Unlocked (readToConnProcess env dest n)
  | 0 => Unlocked.cut
  | n + 1 => by
    apply Unlocked.bind (test_calm .again).unlocked
    intro again
    apply Unlocked.ite _ (Unlocked.done ())
    apply Unlocked.bind bufferSize_calm.unlocked
    intro length
    apply Unlocked.bind (connWriteEx_unlocked henv dest length)
    intro _
    apply Unlocked.bind (test_calm .errnoSet).unlocked
    intro errno
    exact Unlocked.ite (Unlocked.done ()) (readToConnProcess_unlocked dest n)

theorem connEventProcess_unlocked (event : LockEvent) : Unlocked (connEventProcess env event) :=
  eventProcess_unlocked henv (readToConnProcess_unlocked henv event.dest env.rounds) event.type

/-- **The loop of `ConnEventsProcess` (proved).** An event is worked on without the lock, which the loop has again before
it touches the queue. -/
theorem eventsProcessRounds_under (c : ℕ) : ∀ n connEvent, Under c (eventsProcessRounds env c n connEvent)
  | 0, _ => Under.cut
  | n + 1, connEvent => by
    apply Under.bind (eventToProcess_under c connEvent)
    intro event
    cases event with
    | none => exact Under.done ()
    | some event =>
      apply Under.bind (Writes.write .freeList).under
      intro _
      apply Takes.released
      apply Takes.bind (connEventFreeListDestroy_unlocked henv env.rounds)
      intro _
      apply Takes.bind (connEventProcess_unlocked henv event)
      intro status
      apply Takes.acquire
      apply Under.bind (Under.onlyIf _ (eventOver_under env c event status))
      intro _
      exact eventsProcessRounds_under c n none

theorem connEventsProcess_under (c : ℕ) (engineConnEvent : Option LockEvent) :
    Under c (connEventsProcess env c engineConnEvent) := by
  apply Under.bind (eventsProcessRounds_under henv c env.rounds engineConnEvent)
  intro _
  apply Under.bind (queueHead_calm c).under
  intro head
  apply Under.ite (Under.done true)
  apply Under.bind (connEventsInProgress_calm c).under
  intro busy
  apply Under.ite (Under.done true)
  apply Under.bind (connState_calm c).under
  intro state
  apply Under.ite (Under.done true)
  apply Under.bind (test_calm .otherThreads).under
  intro others
  apply Under.ite (Under.done true)
  apply Under.bind (connChangeState_under c)
  intro _
  exact Under.done false

end Consumer

end EventLock

end Connio
