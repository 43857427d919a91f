import Connio.Event
import Connio.Lib.Dialogue

/-!
# The event lock

The functions of `connio.c` and `queue.c` as far as `conn->mutex` and the fields that it guards go: what a thread locks,
unlocks and writes, and what it reads to decide about that. What it reads is answered from outside, because other threads
change a conn whenever its lock is free; so the answers are the states a call can meet, on every path.

* `LockAct`, `Question` — what is done and what is read;
* `LockView`, `eventLockDiscipline` — the locks that a thread holds, and what it may do with them;
* `Env` — the build, and the consumer's code, which may call every API again;
* the functions of `queue.c`, of the conn cache and of the synchronous events, each under the source's name.
-/

namespace Connio

open Lib (Dialogue Discipline)

/-! ### What is done and what is read -/

/-- The fields of a conn that `mutex` guards. -/
inductive GuardedField where
  | state
  | activeEvent
  | queue
  | problem
  | freeList
  deriving DecidableEq, Repr

/-- `fetch` and `recycle` take a conn out of the cache and give it back, `publish` and `withdraw` are the calls of
`ConnListAppend` and `ConnListRemove` for the handle's list of conns in use. -/
inductive LockAct where
  | acquire (c : ℕ)
  | release (c : ℕ)
  | write (c : ℕ) (field : GuardedField)
  | fetch (c : ℕ)
  | publish (c : ℕ)
  | withdraw (c : ℕ)
  | recycle (c : ℕ)
  deriving DecidableEq, Repr

/-- An event of a queue; `dest` is the other conn of a `CONN_EVENT_READ_TO_CONN`. -/
structure LockEvent where
  type : ConnEventType
  dest : ℕ
  deriving DecidableEq, Repr

/-- Who reads `conn->state`, where it matters. -/
inductive StateReader where
  | handleConnections
  | writeClientData
  | other
  deriving DecidableEq, Repr

/-- Who reads `transaction.problem`, where it matters: `ConnAWriteFromBufferEx` aborts the queue on its own. -/
inductive ProblemReader where
  | writeFromBuffer
  | other
  deriving DecidableEq, Repr

/-- The conditions of the source that are about something else than the guarded fields. -/
inductive LockTest where
  | validArguments
  | asyncEnabled
  | shuttingDown
  | newListenersAllowed
  | allocated
  | clientBuffer
  | moreToFree
  | socketOpen
  | secured
  | handshakePending
  | buffered
  | bufferAllocated
  | full
  | errnoSet
  | waitForSubmit
  | otherThreads
  | sslDisconnectNeeded
  | childOfListener
  | shutdownCallback
  | succeeded
  | kept
  | again
  deriving DecidableEq, Repr

/-- The calls of the consumer and of the engine; a call for a family of functions names the family's common body. -/
inductive ConnCall where
  | handleAlloc
  | handleFree
  | handleConnectionsAbort (cllist : Bool)
  | handleConnectionsClose (cllist : Bool)
  | handleShutdown
  | childrenShutdown
  | free (c : ℕ)
  | kill (c : ℕ)
  | syncReady (c : ℕ)
  | aNoop (c : ℕ)
  | aQueuedEvents (c : ℕ)
  | aSubmit (c : ℕ)
  | listen
  | closeListener (c : ℕ)
  | aListen
  | aListenerShutdown (c : ℕ)
  | aStartListener
  | aStopListener
  | aRemoveListener
  | aRestartListener (c : ℕ)
  | accept
  | disconnect (c : ℕ)
  | aDisconnect (c : ℕ)
  | connect
  | aConnect
  | sslConnect (c : ℕ) (tls : Bool)
  | aSslConnect (c : ℕ) (tls : Bool)
  | sslAccept (c : ℕ) (tls : Bool)
  | aSslAccept (c : ℕ) (tls : Bool)
  | sslDisconnect (c : ℕ)
  | aSslDisconnect (c : ℕ)
  | readToCondition (c : ℕ) (type : ConnEventType)
  | aReadToCondition (c : ℕ) (type : ConnEventType)
  | aReadAndSubmit (c : ℕ)
  | readToCB (c : ℕ)
  | aReadToCB (c : ℕ)
  | readToConn (c dest : ℕ)
  | aReadToConn (c dest : ℕ)
  | flush (c : ℕ)
  | aFlush (c : ℕ)
  | write (c length : ℕ)
  | aWrite (c length : ℕ)
  | aWriteFromBuffer (c length : ℕ)
  | writeFromCB (c : ℕ)
  | aWriteFromCB (c : ℕ)
  | aWriteBacklog (c : ℕ)
  | queueCompleteCallback (c : ℕ)
  | acceptCallback
  | asyncListenerCallback (c : ℕ)
  | asyncEventCallback (c : ℕ) (event : LockEvent)
  | aListenerCallback (c : ℕ)
  deriving DecidableEq, Repr

inductive Question where
  /-- `conn->state` -/
  | state (reader : StateReader) (c : ℕ)
  /-- `transaction.problem`, non-NULL -/
  | problem (reader : ProblemReader) (c : ℕ)
  /-- a slot of `activeEvent`, non-NULL or equal to the caller's event -/
  | slot (cls : ConnEventClass) (c : ℕ)
  /-- `transaction.queue.head`, non-NULL -/
  | queueHead (c : ℕ)
  /-- the first queued event of the class that may be started, any event for `none` -/
  | nextQueued (cls : Option ConnEventClass) (c : ℕ)
  /-- the status that `ConnEventProcess` comes to -/
  | outcome
  | test (t : LockTest)
  /-- a size: the free space of an IOBuffer, or the data that is sent on -/
  | size
  /-- an entry of the conn cache, NULL without memory -/
  | cacheEntry
  /-- the next conn of a list, NULL at its end -/
  | nextConn
  /-- what the consumer's code calls -/
  | calls

def Question.Answer : Question → Type
  | .state _ _ => ConnState
  | .problem _ _ | .slot _ _ | .queueHead _ | .test _ => Bool
  | .nextQueued _ _ => Option LockEvent
  | .outcome => ConnEventStatus
  | .size => ℕ
  | .cacheEntry | .nextConn => Option ℕ
  | .calls => List ConnCall

/-- A function of the source, as far as the event lock goes. -/
abbrev Locking := Dialogue LockAct Question Question.Answer

/-! ### The discipline -/

/-- The locks that a thread holds, and the conns that no other thread can reach: taken out of the cache and not yet in the
handle's list, or taken out of that list and not yet back in the cache. -/
structure LockView where
  held : List ℕ
  own : List ℕ
  deriving DecidableEq, Repr

def LockView.next (v : LockView) : LockAct → LockView
  | .acquire c => { v with held := c :: v.held }
  | .release c => { v with held := v.held.erase c }
  | .write _ _ => v
  | .fetch c | .withdraw c => { v with own := c :: v.own }
  | .publish c | .recycle c => { v with own := v.own.erase c }

/-- A lock is not taken by the thread that holds it, and a guarded field is written under the lock, or of a conn that no
other thread can reach. -/
def LockView.Allowed (v : LockView) : LockAct → Prop
  | .acquire c => c ∉ v.held
  | .write c _ => c ∈ v.held ∨ c ∈ v.own
  | _ => True

/-- What a call must not find, for the source goes wrong then: a synchronous listener in the list of a handle whose conns
are aborted or closed, and, in a conn that other threads can reach, an idle state for an asynchronous write and a queue
without a problem for the failure of a large one. -/
def LockView.Excuse (v : LockView) : (q : Question) → q.Answer → Prop
  | .state .handleConnections _, x => x = ConnState.synchronousListener
  | .state .writeClientData c, x => x = ConnState.idle ∧ c ∉ v.own
  | .problem .writeFromBuffer c, x => x = false ∧ c ∉ v.own
  | _, _ => False

def eventLockDiscipline : Discipline LockView LockAct Question Question.Answer where
  next := LockView.next
  allowed := LockView.Allowed
  excuse := LockView.Excuse

/-- The build, how often a loop of the source goes round before a run is cut, and the code of the consumer. -/
structure Env where
  debug : Bool
  rounds : ℕ
  consumer : Locking Unit

namespace EventLock

open Lib.Dialogue (act onlyIf cut)

def asking (q : Question) : Locking q.Answer := Dialogue.query q

def test (t : LockTest) : Locking Bool := asking (.test t)

def connState (c : ℕ) : Locking ConnState := asking (.state .other c)

def problemSet (reader : ProblemReader) (c : ℕ) : Locking Bool := asking (.problem reader c)

def slot (cls : ConnEventClass) (c : ℕ) : Locking Bool := asking (.slot cls c)

def processOutcome : Locking ConnEventStatus := asking .outcome

def nextConn : Locking (Option ℕ) := asking .nextConn

def bufferSize : Locking ℕ := asking .size

def queueHead (c : ℕ) : Locking Bool := asking (.queueHead c)

def eventLockAcquire (c : ℕ) : Locking Unit := act (.acquire c)

def eventLockRelease (c : ℕ) : Locking Unit := act (.release c)

def connChangeState (c : ℕ) : Locking Unit := act (.write c .state)

def connEventInProgressSet (c : ℕ) : Locking Unit := act (.write c .activeEvent)

def connEventInProgressClear (c : ℕ) : Locking Unit := act (.write c .activeEvent)

variable (env : Env)

/-! ### Lists of events -/

def connEventFreeListAdd (c : ℕ) : Locking Unit := act (.write c .freeList)

def connEventFreeListGrab (c : ℕ) : Locking Unit := act (.write c .freeList)

/-- The `freeCB` of the buffer of a `CONN_EVENT_WRITE_FROM_CLIENT_BUFFER` is code of the consumer. -/
def connEventFreeResources : Locking Unit := do
  onlyIf (← test .clientBuffer) env.consumer

def connEventFree : Locking Unit := connEventFreeResources env

def connEventFreeListDestroy : ℕ → Locking Unit
  | 0 => cut
  | n + 1 => do
    if ← test .moreToFree then
      connEventFree env
      connEventFreeListDestroy n
    else pure ()

def eventQueueAppendEvent (c : ℕ) : Locking Unit := act (.write c .queue)

def eventQueueRemoveEvent (c : ℕ) : Locking Unit := act (.write c .queue)

/-- `GetNextEnqueuedEvent`, `GetNextEnqueuedSendEvent` and `GetNextEnqueuedReceiveEvent` -/
def getNextEnqueuedEvent (cls : Option ConnEventClass) (c : ℕ) : Locking (Option LockEvent) := do
  let event : Option LockEvent ← asking (.nextQueued cls c)
  onlyIf event.isSome (eventQueueRemoveEvent c)
  pure event

def connEventsInProgress (c : ℕ) : Locking Bool := do
  if ← slot .connect c then pure true
  else if ← slot .receive c then pure true
  else slot .send c

/-- The events are marked and killed in the engine, under locks of the engine. -/
def cancelEventsInProgress (c : ℕ) : Locking Unit := do
  onlyIf (← connEventsInProgress c) do
    onlyIf (← test .socketOpen) do
      onlyIf (!(← slot .connect c)) do
        let _ ← slot .send c
        let _ ← slot .receive c
        pure ()

def cancelQueuedEvents (c : ℕ) : ℕ → Locking Unit
  | 0 => cut
  | n + 1 => do
    match ← getNextEnqueuedEvent none c with
    | none => pure ()
    | some _ =>
      connEventFreeListAdd c
      cancelQueuedEvents c n

def setAsyncProblem (reader : ProblemReader) (c : ℕ) : Locking Bool := do
  if ← problemSet reader c then pure false
  else
    act (.write c .problem)
    pure true

def eventQueueAbort (reader : ProblemReader) (c : ℕ) : Locking Unit := do
  onlyIf (← setAsyncProblem reader c) do
    cancelQueuedEvents c env.rounds
    cancelEventsInProgress c

/-! ### The cache -/

/-- The memory of a conn up to its mutex is cleared. -/
def connectionWipe (c : ℕ) : Locking Unit := do
  act (.write c .state)
  act (.write c .activeEvent)
  act (.write c .queue)
  act (.write c .problem)
  act (.write c .freeList)

def connectionInit (c : ℕ) : Locking Unit := do
  connectionWipe c
  eventLockAcquire c
  connChangeState c
  eventLockRelease c

def connAllocCB (c : ℕ) : Locking Bool := do
  connectionWipe c
  if ← test .allocated then
    connectionInit c
    env.consumer
    test .succeeded
  else pure false

def connFreeCB (c : ℕ) : Locking Unit := do
  env.consumer
  eventLockAcquire c
  connChangeState c
  eventLockRelease c

/-- `MemPrivatePoolGetEntry`: an entry that is new goes through `ConnAllocCB`. -/
def cacheGetEntry : Locking (Option ℕ) := do
  match ← asking .cacheEntry with
  | none => pure none
  | some c =>
    act (.fetch c)
    if ← test .kept then pure (some c)
    else if ← connAllocCB env c then pure (some c)
    else
      act (.recycle c)
      pure none

/-- `MemPrivatePoolReturnEntry`: an entry that the cache does not keep goes through `ConnFreeCB`. -/
def cacheReturnEntry (c : ℕ) : Locking Unit := do
  onlyIf (!(← test .kept)) (connFreeCB env c)
  act (.recycle c)

def connRecycle (c : ℕ) : Locking Unit := do
  env.consumer
  connectionInit c
  cacheReturnEntry env c

def connAllocEx : Locking (Option ℕ) := do
  if ← test .allocated then
    match ← cacheGetEntry env with
    | none => pure none
    | some c =>
      connChangeState c
      act (.publish c)
      pure (some c)
  else pure none

/-! ### Synchronous events -/

def synchronousConnectEventInsert (c : ℕ) : Locking Bool := do
  eventLockAcquire c
  if (← connState c) = .idle then
    if ← connEventsInProgress c then
      eventLockRelease c
      pure false
    else
      connChangeState c
      connEventInProgressSet c
      eventLockRelease c
      pure true
  else
    eventLockRelease c
    pure false

def synchronousConnectEventRemove (c : ℕ) : Locking Bool := do
  eventLockAcquire c
  if (← connState c) = .synchronous then
    if ← slot .connect c then
      connEventInProgressClear c
      connChangeState c
      eventLockRelease c
      pure true
    else
      eventLockRelease c
      pure false
  else
    eventLockRelease c
    pure false

/-- Data that waits to be sent is handed over with the event, which then goes into the connect slot. -/
def synchronousReceiveEventInsert (c : ℕ) : Locking (Bool × Bool) := do
  eventLockAcquire c
  let state ← connState c
  if state = .idle ∨ state = .synchronous then
    if ← slot .connect c then
      eventLockRelease c
      pure (false, false)
    else if ← slot .receive c then
      eventLockRelease c
      pure (false, false)
    else
      connChangeState c
      let flush ← test .buffered
      connEventInProgressSet c
      eventLockRelease c
      pure (true, flush)
  else
    eventLockRelease c
    pure (false, false)

def synchronousReceiveEventRemove (c : ℕ) (haveConnectLock : Bool) : Locking Bool := do
  eventLockAcquire c
  if (← connState c) = .synchronous then
    if ← slot (if haveConnectLock then .connect else .receive) c then
      connEventInProgressClear c
      connChangeState c
      eventLockRelease c
      pure true
    else
      eventLockRelease c
      pure false
  else
    eventLockRelease c
    pure false

def synchronousSendEventInsert (c : ℕ) : Locking Bool := do
  eventLockAcquire c
  let state ← connState c
  if state = .idle ∨ state = .synchronous then
    if ← slot .connect c then
      eventLockRelease c
      pure false
    else if ← slot .send c then
      eventLockRelease c
      pure false
    else
      connChangeState c
      connEventInProgressSet c
      eventLockRelease c
      pure true
  else
    eventLockRelease c
    pure false

def synchronousSendEventRemove (c : ℕ) : Locking Bool := do
  eventLockAcquire c
  if (← connState c) = .synchronous then
    if ← slot .send c then
      connEventInProgressClear c
      onlyIf (!(← slot .receive c)) (connChangeState c)
      eventLockRelease c
      pure true
    else
      eventLockRelease c
      pure false
  else
    eventLockRelease c
    pure false

/-! ### Events that are processed, and client data -/

/-- The `ConnIOCB` of an event is code of the consumer. -/
def callbackRounds : ℕ → Locking Unit
  | 0 => cut
  | n + 1 => do
    env.consumer
    if ← test .again then callbackRounds n else pure ()

/-- The socket work of an event is not the event lock's, but the code that it calls may be. -/
def socketEventProcess (toConn : Locking Unit) (type : ConnEventType) : Locking Unit :=
  match type with
  | .readToCb | .writeFromCb => callbackRounds env env.rounds
  | .readToConn => toConn
  | .writeFromClientBuffer => connEventFreeResources env
  | _ => pure ()

/-- `ConnEventProcess`, with `toConn` for the other conn of a `CONN_EVENT_READ_TO_CONN`. -/
def eventProcess (toConn : Locking Unit) (type : ConnEventType) : Locking ConnEventStatus := do
  socketEventProcess env toConn type
  let status ← processOutcome
  onlyIf (type = .writeFromClientBuffer ∧ status ≠ ConnEventStatus.inProgress) (connEventFreeResources env)
  pure status

def connFlushSync (c : ℕ) : Locking Unit := do
  onlyIf (← synchronousSendEventInsert c) do
    let _ ← eventProcess env (pure ()) .flush
    let _ ← synchronousSendEventRemove c
    pure ()

/-- The mutex counts the writers of a DEBUG build. -/
def startWriter (c : ℕ) : Locking Unit :=
  onlyIf env.debug do
    eventLockAcquire c
    eventLockRelease c

def endWriter (c : ℕ) : Locking Unit := startWriter env c

/-- The buffer is filled with what remains; a return of `false` says that it is full. -/
def writeBuffer (length : ℕ) : ℕ → ℕ → Locking (Bool × ℕ)
  | 0, _ => cut
  | n + 1, transferred => do
    let bufferSpace ← bufferSize
    if bufferSpace = 0 then pure (false, transferred)
    else if length - transferred < bufferSpace then pure (true, length)
    else writeBuffer length n (transferred + bufferSpace)

def writeRounds (c length : ℕ) (flush failure : Locking Unit) : ℕ → ℕ → Locking ℕ
  | 0, _ => cut
  | n + 1, transferred => do
    if ← test .bufferAllocated then
      let (done, transferred') ← writeBuffer length env.rounds transferred
      if done then
        endWriter env c
        pure transferred'
      else
        flush
        if ← test .errnoSet then
          endWriter env c
          pure transferred'
        else writeRounds c length flush failure n transferred'
    else
      failure
      endWriter env c
      pure transferred

/-- `begin`, `flush` and `failure` are what depends on `async`: the state of the transaction, the flush of a full buffer and
the report of a failure. -/
def writeClientData (c length : ℕ) (begin flush failure : Locking Unit) : Locking ℕ := do
  startWriter env c
  begin
  if 0 < length then writeRounds env c length flush failure env.rounds 0
  else
    endWriter env c
    pure 0

def writeClientDataSync (c length : ℕ) : Locking ℕ :=
  writeClientData env c length (pure ()) (connFlushSync env c) (pure ())

def connWriteEx (c length : ℕ) : Locking Unit := do
  onlyIf (!(← test .shuttingDown)) do
    let _ ← writeClientDataSync env c length
    pure ()

/-- The data is written to the other conn. -/
def readToConnProcess (dest : ℕ) : ℕ → Locking Unit
  | 0 => cut
  | n + 1 => do
    if ← test .again then
      connWriteEx env dest (← bufferSize)
      if ← test .errnoSet then pure () else readToConnProcess dest n
    else pure ()

def connEventProcess (event : LockEvent) : Locking ConnEventStatus :=
  eventProcess env (readToConnProcess env event.dest env.rounds) event.type

/-! ### The queue -/

def connEventNext (c : ℕ) : Locking (Option LockEvent) := do
  if ← problemSet .other c then pure none
  else if !(← queueHead c) then pure none
  else if ← slot .connect c then pure none
  else if ← slot .receive c then
    if ← slot .send c then pure none else getNextEnqueuedEvent (some .send) c
  else if ← slot .send c then getNextEnqueuedEvent (some .receive) c
  else getNextEnqueuedEvent none c

/-- The event that the loop of `ConnEventsProcess` works on next. -/
def eventToProcess (c : ℕ) (connEvent : Option LockEvent) : Locking (Option LockEvent) := do
  match connEvent with
  | some event => pure (some event)
  | none =>
    match ← connEventNext c with
    | none => pure none
    | some event =>
      connEventInProgressSet c
      pure (some event)

/-- What becomes of the queue when an event is over. -/
def handleErrors (c : ℕ) (event : LockEvent) (status : ConnEventStatus) : Locking Unit := do
  if ← problemSet .other c then pure ()
  else if status = .timedOut ∨ status = .failed ∨ status = .killed then eventQueueAbort env .other c
  else if status = .partialResult then
    let _ ← setAsyncProblem .other c
    pure ()
  else onlyIf ((← test .shuttingDown) && !event.type.isShutdown) (eventQueueAbort env .other c)

def eventOver (c : ℕ) (event : LockEvent) (status : ConnEventStatus) : Locking Unit := do
  connEventInProgressClear c
  handleErrors env c event status
  connEventFreeListAdd c

def eventsProcessRounds (c : ℕ) : ℕ → Option LockEvent → Locking Unit
  | 0, _ => cut
  | n + 1, connEvent => do
    match ← eventToProcess c connEvent with
    | none => pure ()
    | some event =>
      connEventFreeListGrab c
      eventLockRelease c
      connEventFreeListDestroy env env.rounds
      let status ← connEventProcess env event
      eventLockAcquire c
      onlyIf (status ≠ ConnEventStatus.inProgress) (eventOver env c event status)
      eventsProcessRounds c n none

/-- The caller holds the event lock; it is free while an event is worked on. -/
def connEventsProcess (c : ℕ) (engineConnEvent : Option LockEvent) : Locking Bool := do
  eventsProcessRounds env c env.rounds engineConnEvent
  if ← queueHead c then pure true
  else if ← connEventsInProgress c then pure true
  else if (← connState c) = .asynchronousClient then pure true
  else if ← test .otherThreads then pure true
  else
    connChangeState c
    pure false

def queueingPermitted (c : ℕ) : Locking Bool := do
  match ← connState c with
  | .idle | .asynchronousClient => pure true
  | _ => pure false

/-- The error of `submitProblem`: there are no events, or the conn is not the consumer's. -/
def submitProblem (c : ℕ) : Locking Errno := do
  match ← connState c with
  | .asynchronousClient => pure 0
  | .idle => pure Errno.eperm
  | .free | .cached => pure Errno.einval
  | _ => pure Errno.ebusy

def eventEngineQueueAdd (c : ℕ) (type : ConnEventType) : Locking Unit := do
  if ← problemSet .other c then connEventFreeListAdd c
  else if !(← test .shuttingDown) then eventQueueAppendEvent c
  else if type.isShutdown then eventQueueAppendEvent c
  else
    let _ ← setAsyncProblem .other c
    connEventFreeListAdd c

/-- The transaction is cleared, for the callback may begin a new one. -/
def prepareForCallback (c : ℕ) : Locking Unit := do
  connEventFreeListGrab c
  act (.write c .queue)
  act (.write c .problem)
  act (.write c .freeList)
  connChangeState c

def callbackAsyncConsumer : Locking Unit := do
  connEventFreeListDestroy env env.rounds
  env.consumer

def queueCompleteCallback (c : ℕ) : Locking Unit := do
  eventLockAcquire c
  prepareForCallback c
  eventLockRelease c
  callbackAsyncConsumer env

/-- An event that connio puts in front of the consumer's. -/
def insertEvent (c : ℕ) (type : ConnEventType) : Locking Unit := do
  if ← test .allocated then eventEngineQueueAdd c type else eventQueueAbort env .other c

/-- A flush comes before everything but a send. -/
def flushAEventNeeded (type : ConnEventType) : Locking Bool := do
  if type.eventClass = .send then pure false else test .buffered

def sslDisconnectEventNeeded (type : ConnEventType) : Locking Bool := do
  if type = .disconnect then test .sslDisconnectNeeded else pure false

/-- `connEvent` is NULL for `ConnANoopEx`. -/
def enqueueWithInserted (c : ℕ) (connEvent : Option ConnEventType) : Locking Unit := do
  match connEvent with
  | none => pure ()
  | some type =>
    onlyIf (← flushAEventNeeded type) (insertEvent env c .flush)
    onlyIf (← sslDisconnectEventNeeded type) (insertEvent env c .sslDisconnect)
    eventEngineQueueAdd c type

def eventEnqueue (c : ℕ) (connEvent : Option ConnEventType) : Locking Bool := do
  eventLockAcquire c
  if ← queueingPermitted c then
    onlyIf ((← connState c) ≠ ConnState.asynchronousClient) (connChangeState c)
    enqueueWithInserted env c connEvent
    onlyIf (!(← test .waitForSubmit)) do
      let _ ← connEventsProcess env c none
      pure ()
    eventLockRelease c
    pure true
  else
    eventLockRelease c
    pure false

def eventEnqueueFailure (c : ℕ) : Locking Unit := do
  eventLockAcquire c
  onlyIf (← queueingPermitted c) do
    onlyIf ((← connState c) ≠ ConnState.asynchronousClient) (connChangeState c)
    eventQueueAbort env .other c
  eventLockRelease c

def eventsQueued (c : ℕ) : Locking Bool := do
  pure ((← submitProblem c) = 0)

def eventsSubmit (c : ℕ) : Locking Bool := do
  eventLockAcquire c
  let err ← submitProblem c
  if err ≠ 0 ∧ err ≠ Errno.eperm then
    eventLockRelease c
    pure false
  else
    onlyIf (err ≠ 0) do
      let _ ← setAsyncProblem .other c
      pure ()
    connChangeState c
    let _ ← connEventsProcess env c none
    eventLockRelease c
    pure true

/-- A socket without a conn is closed. -/
def acceptCallback : Locking Unit := do
  onlyIf (← connAllocEx env).isSome env.consumer

def asyncListenerCallback (c : ℕ) : Locking Unit := do
  eventLockAcquire c
  connEventInProgressClear c
  connChangeState c
  eventLockRelease c
  connEventFree env
  env.consumer

def asyncEventCallback (c : ℕ) (event : LockEvent) : Locking Unit := do
  eventLockAcquire c
  let _ ← connEventsProcess env c (some event)
  eventLockRelease c

end EventLock

end Connio
