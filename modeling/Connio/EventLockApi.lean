import Connio.EventLock
import Connio.Read

/-!
# The event lock in the APIs and the callbacks

Every exported function of `connio.c` that takes the event lock of a conn, writes a guarded field or reads one, and every
callback of the socket engine, as far as `EventLock` goes.

* `connKillEx`, `connFreeEx`, `handleConnectionsAbortEx`, `handleConnectionsCloseEx` — conns that are torn down;
* the listeners, the synchronous and the asynchronous calls;
* `apiCall` — any of them; `consumerCode` — the code of the consumer, which makes calls in its callbacks.
-/

namespace Connio

namespace EventLock

open Lib.Dialogue (act onlyIf cut)

variable (env : Env)

/-! ### Tearing down -/

def synchronousListenerClose (c : ℕ) : Locking Unit := do
  eventLockAcquire c
  connChangeState c
  eventLockRelease c

/-- The listening socket is killed in the engine, under locks of the engine. The listener's event callback that may hear of
it runs under the socket's spin lock and is given no conn. -/
def asynchronousListenerShutdown (c : ℕ) : Locking Unit := do
  onlyIf (← slot .connect c) do
    let _ ← connState c
    pure ()

def connKillEx (c : ℕ) : Locking Bool := do
  eventLockAcquire c
  match ← connState c with
  | .cached | .free =>
    eventLockRelease c
    pure false
  | .idle | .synchronous =>
    eventLockRelease c
    pure true
  | .asynchronousEngineComplete | .asynchronousEngine | .asynchronousClient =>
    eventQueueAbort env .other c
    eventLockRelease c
    pure true
  | .synchronousListener | .asynchronousListener =>
    eventLockRelease c
    pure false

/-- A conn is spared that is no child of the listeners in `cllist`. -/
def spared (cllist : Bool) : Locking Bool := do
  if cllist then pure !(← test .childOfListener) else pure false

/-- What `ConnHandleConnectionsAbortEx` does with a conn of the list, under its event lock. -/
def abortConn (cllist : Bool) (c : ℕ) : Locking Unit := do
  match (← asking (.state .handleConnections c) : ConnState) with
  | .asynchronousEngine | .asynchronousClient => onlyIf (!(← spared cllist)) (eventQueueAbort env .other c)
  | .synchronousListener => synchronousListenerClose c
  | .asynchronousListener => asynchronousListenerShutdown c
  | _ => pure ()

/-- What `ConnHandleConnectionsCloseEx` does with a conn of the list, under its event lock. -/
def closeConn (c : ℕ) : Locking Unit := do
  match (← asking (.state .handleConnections c) : ConnState) with
  | .synchronousListener => synchronousListenerClose c
  | .asynchronousListener => asynchronousListenerShutdown c
  | _ => pure ()

/-- A loop over the conns of a list, with what it does with each of them. -/
def forEachConn (visit : ℕ → Locking Unit) : ℕ → Locking Unit
  | 0 => cut
  | n + 1 => do
    match ← nextConn with
    | none => pure ()
    | some c =>
      visit c
      forEachConn visit n

def handleConnectionsAbortEx (cllist : Bool) : Locking Unit :=
  forEachConn (fun c => do
    eventLockAcquire c
    abortConn env cllist c
    eventLockRelease c) env.rounds

/-- The consumer's `shutdownCallback` may take the conn over. -/
def shutdownCallback : Locking Bool := do
  if ← test .shutdownCallback then
    env.consumer
    test .succeeded
  else pure false

def handleConnectionsCloseEx : Locking Unit :=
  forEachConn (fun c => do
    onlyIf (!(← shutdownCallback env)) do
      eventLockAcquire c
      closeConn c
      eventLockRelease c) env.rounds

/-- `ConnHandleShutdownEx` and `ConnChildrenShutdownEx`; `succeeded` is a wait that ends without conns. -/
def shutdownEx (cllist : Bool) : Locking Unit := do
  onlyIf (!(← test .succeeded)) do
    handleConnectionsAbortEx env cllist
    onlyIf (!(← test .succeeded)) (handleConnectionsCloseEx env)

def closeHandleConnections : Locking Unit :=
  forEachConn (fun c => do
    let _ ← connKillEx env c
    pure ()) env.rounds

/-- The cache frees the conns that it has. -/
def cacheFree : Locking Unit := forEachConn (connFreeCB env) env.rounds

/-- The cache begins with conns of its own. -/
def cacheAlloc : Locking Unit :=
  forEachConn (fun c => do
    act (.fetch c)
    let _ ← connAllocCB env c
    act (.recycle c)) env.rounds

def connHandleFree : Locking Unit := do
  closeHandleConnections env
  cacheFree env

def implicitFlushOnConnectEvent : Locking Unit := do
  onlyIf (← test .buffered) do
    let _ ← eventProcess env (pure ()) .flush
    pure ()

def implicitSSLDisconnectOnConnectEvent : Locking Unit := do
  onlyIf (← test .secured) do
    let _ ← eventProcess env (pure ()) .sslDisconnect
    pure ()

def isListener (c : ℕ) : Locking Bool := do
  let state ← connState c
  pure (decide (state = .asynchronousListener ∨ state = .synchronousListener))

/-- The end of `connFreeEx`: from `ConnListRemove` on no other thread finds the conn. -/
def connFreeFinish (c : ℕ) : Locking Unit := do
  act (.withdraw c)
  onlyIf (!(← isListener c)) do
    let _ ← synchronousConnectEventRemove c
    pure ()
  connRecycle env c

def connFreeEx (c : ℕ) : Locking Bool := do
  let state ← connState c
  if state = .free ∨ state = .cached then pure false
  else if ← isListener c then
    connFreeFinish env c
    pure true
  else if ← synchronousConnectEventInsert c then
    onlyIf (← test .socketOpen) do
      implicitFlushOnConnectEvent env
      implicitSSLDisconnectOnConnectEvent env
    connFreeFinish env c
    pure true
  else pure false

/-! ### Listeners -/

def connListenEx : Locking Unit := do
  match ← connAllocEx env with
  | none => pure ()
  | some c =>
    if ← test .succeeded then
      eventLockAcquire c
      connChangeState c
      eventLockRelease c
    else
      let _ ← connFreeEx env c
      pure ()

def connCloseListenerEx (c : ℕ) : Locking Unit := do
  if (← connState c) = .synchronousListener then synchronousListenerClose c else pure ()

/-- The event of an asynchronous listener, until the engine has it. -/
def listenEvent (c : ℕ) : Locking Bool := do
  if ← test .allocated then
    eventLockAcquire c
    connChangeState c
    connEventInProgressSet c
    eventLockRelease c
    if ← test .succeeded then pure true
    else
      eventLockAcquire c
      connEventInProgressClear c
      connChangeState c
      eventLockRelease c
      connEventFree env
      pure false
  else pure false

def connAListenEx : Locking Unit := do
  onlyIf ((← test .asyncEnabled) && !(← test .shuttingDown) && (← test .newListenersAllowed)) do
    match ← connAllocEx env with
    | none => pure ()
    | some c =>
      if ← test .succeeded then
        if ← listenEvent env c then pure ()
        else
          let _ ← connFreeEx env c
          pure ()
      else
        let _ ← connFreeEx env c
        pure ()

/-- The listeners that match are started one after the other. -/
def connAStartListenerEx : ℕ → Locking Unit
  | 0 => cut
  | n + 1 => do
    if ← test .again then
      connAListenEx env
      connAStartListenerEx n
    else pure ()

/-- `ConnAStopListenerEx` and `ConnARemoveListenerEx`: the listeners that match, as far as they have a conn. -/
def connAStopListenerEx : Locking Unit := forEachConn asynchronousListenerShutdown env.rounds

/-- With the new address the listener has a new conn, and `c` is the old one. -/
def connARestartListenerEx (c : ℕ) : Locking Unit := do
  connAStartListenerEx env env.rounds
  onlyIf (← test .succeeded) (asynchronousListenerShutdown c)

/-- A listener that was not stopped begins again. -/
def connAListenerCallback (c : ℕ) : Locking Unit := do
  let _ ← connFreeEx env c
  onlyIf (← test .again) (connAStartListenerEx env env.rounds)

def connAcceptEx : Locking Unit := do
  match ← connAllocEx env with
  | none => pure ()
  | some c =>
    if ← test .succeeded then pure ()
    else
      let _ ← connFreeEx env c
      pure ()

/-! ### Synchronous calls -/

/-- A connect-class event in the connect slot; `ready` is what the call asks of the conn. -/
def connectEvent (c : ℕ) (ready : Locking Bool) (type : ConnEventType) : Locking Unit := do
  onlyIf (← synchronousConnectEventInsert c) do
    onlyIf (← ready) do
      implicitFlushOnConnectEvent env
      let _ ← eventProcess env (pure ()) type
      pure ()
    let _ ← synchronousConnectEventRemove c
    pure ()

def connectedNotSecured : Locking Bool := do
  if ← test .socketOpen then pure !(← test .secured) else pure false

def connDisconnectEx (c : ℕ) : Locking Unit := do
  connectEvent env c connectedNotSecured .disconnect

def connSSLConnectEx (c : ℕ) (tls : Bool) : Locking Unit := do
  onlyIf (!(← test .shuttingDown))
    (connectEvent env c connectedNotSecured (if tls then .tlsConnect else .sslConnect))

def connSSLAcceptEx (c : ℕ) (tls : Bool) : Locking Unit := do
  onlyIf (!(← test .shuttingDown))
    (connectEvent env c connectedNotSecured (if tls then .tlsAccept else .sslAccept))

def connSSLDisconnectEx (c : ℕ) : Locking Unit :=
  connectEvent env c (test .secured) .sslDisconnect

/-- The connect event of a new conn, and whether it was completed. -/
def connectNewConn (c : ℕ) : Locking Bool := do
  if ← synchronousConnectEventInsert c then
    let status ← eventProcess env (pure ()) .connect
    let _ ← synchronousConnectEventRemove c
    pure (decide (status = ConnEventStatus.complete))
  else pure false

def connConnectEx : Locking Unit := do
  match ← connAllocEx env with
  | none => pure ()
  | some c =>
    env.consumer
    if !(← test .shuttingDown) && (← test .validArguments) then
      if ← connectNewConn env c then pure ()
      else
        let _ ← connFreeEx env c
        pure ()
    else
      let _ ← connFreeEx env c
      pure ()

/-- A read in the receive slot, or in the connect slot when it flushes first. -/
def receiveEvent (c : ℕ) (toConn : Locking Unit) (type : ConnEventType) : Locking Unit := do
  onlyIf (!(← test .shuttingDown)) do
    let (inserted, flush) ← synchronousReceiveEventInsert c
    onlyIf inserted do
      onlyIf flush do
        let _ ← eventProcess env (pure ()) .flush
        pure ()
      let _ ← eventProcess env toConn type
      let _ ← synchronousReceiveEventRemove c flush
      pure ()

def connReadToCondition (c : ℕ) (type : ConnEventType) : Locking Unit := do
  onlyIf (← test .validArguments) do
    onlyIf (!(← test .errnoSet)) (receiveEvent env c (pure ()) type)

def connReadToCBEx (c : ℕ) : Locking Unit := do
  onlyIf (← test .validArguments) (receiveEvent env c (pure ()) .readToCb)

def connReadToConnEx (c dest : ℕ) : Locking Unit := do
  onlyIf (← test .validArguments) (receiveEvent env c (readToConnProcess env dest env.rounds) .readToConn)

def connFlushEx (c : ℕ) : Locking Unit := do
  onlyIf (← test .validArguments) do
    onlyIf (← test .buffered) (connFlushSync env c)

/-- `ConnWriteEx`, `ConnWriteStringEx`, `ConnWriteVEx` -/
def connWrite (c length : ℕ) : Locking Unit := do
  onlyIf (← test .validArguments) (connWriteEx env c length)

def connWriteFromCBEx (c : ℕ) : Locking Unit := do
  onlyIf ((← test .validArguments) && !(← test .shuttingDown) && (← test .bufferAllocated)) do
    onlyIf (← synchronousSendEventInsert c) do
      let _ ← eventProcess env (pure ()) .writeFromCb
      let _ ← synchronousSendEventRemove c
      pure ()

/-! ### Asynchronous calls -/

def eventEnqueueOrFree (c : ℕ) (type : ConnEventType) : Locking Bool := do
  if ← eventEnqueue env c (some type) then pure true
  else
    connEventFree env
    pure false

/-- An event is allocated and queued, or the failure is reported. -/
def queueEvent (c : ℕ) (type : ConnEventType) : Locking Unit := do
  if ← test .allocated then
    if ← eventEnqueueOrFree env c type then pure () else eventEnqueueFailure env c
  else eventEnqueueFailure env c

def queueUnlessShuttingDown (c : ℕ) (type : ConnEventType) : Locking Unit := do
  if ← test .shuttingDown then eventEnqueueFailure env c else queueEvent env c type

/-- The arguments are checked, and the handle for asynchronous events. -/
def ifAsync (p : Locking Unit) : Locking Unit := do
  onlyIf ((← test .validArguments) && (← test .asyncEnabled)) p

def connANoopEx (c : ℕ) : Locking Unit :=
  ifAsync do
    let _ ← eventEnqueue env c none
    pure ()

def connASubmitEx (c : ℕ) : Locking Unit :=
  ifAsync do
    let _ ← eventsSubmit env c
    pure ()

def connADisconnectEx (c : ℕ) : Locking Unit := ifAsync (queueEvent env c .disconnect)

def connASSLDisconnectEx (c : ℕ) : Locking Unit := ifAsync (queueEvent env c .sslDisconnect)

/-- A handle that is shutting down is not told to the queue here. -/
def connASSLConnectEx (c : ℕ) (tls : Bool) : Locking Unit :=
  ifAsync do
    onlyIf (!(← test .shuttingDown)) (queueEvent env c (if tls then .tlsConnect else .sslConnect))

def connASSLAcceptEx (c : ℕ) (tls : Bool) : Locking Unit :=
  ifAsync (queueUnlessShuttingDown env c (if tls then .tlsAccept else .sslAccept))

def connAReadToCondition (c : ℕ) (type : ConnEventType) : Locking Unit :=
  ifAsync do
    if ← test .errnoSet then eventEnqueueFailure env c else queueUnlessShuttingDown env c type

/-- `ConnAReadCRLFEx` and `ConnAGetSEx` submit, whether the read was queued or not. -/
def connAReadAndSubmit (c : ℕ) : Locking Unit := do
  connAReadToCondition env c .readUntilPattern
  let _ ← eventsSubmit env c
  pure ()

def connAReadToCBEx (c : ℕ) : Locking Unit := ifAsync (queueUnlessShuttingDown env c .readToCb)

def connAReadToConnEx (c : ℕ) : Locking Unit := ifAsync (queueUnlessShuttingDown env c .readToConn)

def connAWriteFromCBEx (c : ℕ) : Locking Unit :=
  ifAsync do
    if ← test .allocated then
      if ← test .bufferAllocated then
        if ← eventEnqueueOrFree env c .writeFromCb then pure () else eventEnqueueFailure env c
      else
        connEventFree env
        eventEnqueueFailure env c
    else eventEnqueueFailure env c

/-- A buffer with data becomes a flush. -/
def connAFlush (c : ℕ) : Locking Unit := queueEvent env c .flush

def connAFlushEx (c : ℕ) : Locking Unit :=
  ifAsync do
    onlyIf (← test .buffered) (connAFlush env c)

/-- The first event of a transaction changes the state, here without the event lock. -/
def beginTransaction (c : ℕ) : Locking Unit := do
  let state : ConnState ← asking (.state .writeClientData c)
  onlyIf (state = .idle) (connChangeState c)

def writeClientDataAsync (c length : ℕ) : Locking ℕ :=
  writeClientData env c length (beginTransaction c) (connAFlush env c) (eventEnqueueFailure env c)

/-- `ConnAWriteEx`, `ConnAWriteStringEx`, `ConnAWriteVEx`; a string may have a `freeCB`. -/
def connAWriteEx (c length : ℕ) : Locking Unit :=
  ifAsync do
    let _ ← writeClientDataAsync env c length
    connEventFreeResources env

/-- The client's buffer as an event of its own; the queue is aborted without the event lock. -/
def writeLargeBuffer (c : ℕ) : Locking Unit := do
  onlyIf (← test .buffered) (connAFlush env c)
  if ← test .allocated then
    if ← eventEnqueueOrFree env c .writeFromClientBuffer then pure ()
    else eventQueueAbort env .writeFromBuffer c
  else
    env.consumer
    eventQueueAbort env .writeFromBuffer c

def connAWriteFromBufferEx (c length : ℕ) : Locking Unit :=
  ifAsync do
    if length < connIobSize then
      let _ ← writeClientDataAsync env c length
      env.consumer
    else writeLargeBuffer env c

def connAConnectEx : Locking Unit := do
  onlyIf ((← test .asyncEnabled) && !(← test .shuttingDown)) do
    match ← connAllocEx env with
    | none => pure ()
    | some c =>
      env.consumer
      if (← test .validArguments) && (← test .allocated) then
        if ← eventEnqueueOrFree env c .connect then pure ()
        else
          let _ ← connFreeEx env c
          pure ()
      else
        let _ ← connFreeEx env c
        pure ()

/-! ### Any call -/

def apiCall : ConnCall → Locking Unit
  | .handleAlloc => cacheAlloc env
  | .handleFree => connHandleFree env
  | .handleConnectionsAbort cllist => handleConnectionsAbortEx env cllist
  | .handleConnectionsClose _ => handleConnectionsCloseEx env
  | .handleShutdown => shutdownEx env false
  | .childrenShutdown => shutdownEx env true
  | .free c => do
    let _ ← connFreeEx env c
    pure ()
  | .kill c => do
    let _ ← connKillEx env c
    pure ()
  | .syncReady c => do
    let _ ← connState c
    pure ()
  | .aNoop c => connANoopEx env c
  | .aQueuedEvents c => do
    let _ ← eventsQueued c
    pure ()
  | .aSubmit c => connASubmitEx env c
  | .listen => connListenEx env
  | .closeListener c => connCloseListenerEx c
  | .aListen => connAListenEx env
  | .aListenerShutdown c => asynchronousListenerShutdown c
  | .aStartListener => connAStartListenerEx env env.rounds
  | .aStopListener | .aRemoveListener => connAStopListenerEx env
  | .aRestartListener c => connARestartListenerEx env c
  | .accept => connAcceptEx env
  | .disconnect c => connDisconnectEx env c
  | .aDisconnect c => connADisconnectEx env c
  | .connect => connConnectEx env
  | .aConnect => connAConnectEx env
  | .sslConnect c tls => connSSLConnectEx env c tls
  | .aSslConnect c tls => connASSLConnectEx env c tls
  | .sslAccept c tls => connSSLAcceptEx env c tls
  | .aSslAccept c tls => connASSLAcceptEx env c tls
  | .sslDisconnect c => connSSLDisconnectEx env c
  | .aSslDisconnect c => connASSLDisconnectEx env c
  | .readToCondition c type => connReadToCondition env c type
  | .aReadToCondition c type => connAReadToCondition env c type
  | .aReadAndSubmit c => connAReadAndSubmit env c
  | .readToCB c => connReadToCBEx env c
  | .aReadToCB c => connAReadToCBEx env c
  | .readToConn c dest => connReadToConnEx env c dest
  | .aReadToConn c _ => connAReadToConnEx env c
  | .flush c => connFlushEx env c
  | .aFlush c => connAFlushEx env c
  | .write c length => connWrite env c length
  | .aWrite c length => connAWriteEx env c length
  | .aWriteFromBuffer c length => connAWriteFromBufferEx env c length
  | .writeFromCB c => connWriteFromCBEx env c
  | .aWriteFromCB c => connAWriteFromCBEx env c
  | .aWriteBacklog c => do
    let _ ← queueHead c
    pure ()
  | .queueCompleteCallback c => queueCompleteCallback env c
  | .acceptCallback => acceptCallback env
  | .asyncListenerCallback c => asyncListenerCallback env c
  | .asyncEventCallback c event => asyncEventCallback env c event
  | .aListenerCallback c => connAListenerCallback env c

def apiCalls : List ConnCall → Locking Unit
  | [] => pure ()
  | call :: calls => do
    apiCall env call
    apiCalls calls

/-- The code of the consumer makes any calls, whose callbacks run code of the consumer again, `depth` deep. -/
def consumerCode (debug : Bool) (rounds : ℕ) : ℕ → Locking Unit
  | 0 => cut
  | depth + 1 => do
    apiCalls ⟨debug, rounds, consumerCode debug rounds depth⟩ (← asking .calls)

/-- A call of a build, with callbacks that are nested up to `depth`. -/
def call (debug : Bool) (rounds depth : ℕ) (c : ConnCall) : Locking Unit :=
  apiCall ⟨debug, rounds, consumerCode debug rounds depth⟩ c

end EventLock

end Connio
