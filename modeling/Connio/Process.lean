import Connio.Queue

/-!
# Processing an event

`ConnEventProcess` and `EventProcess` (`process.c`) for an asynchronous event, cut into the steps between
which another thread can run.  The thread owns the event and holds no event lock.

* `ProcessMove`, `processMove` — one step inside `socketEventProcess`: a socket call, octets handed to
  the consumer, or the return;
* `Stage`, `StageMove`, `eventProcessStep` — where a thread is in `ConnEventProcess`, and its next step.

What a socket call, a callback or the SSL library answers is part of the move.
-/

namespace Connio

namespace Conn

def setStatus (c : Conn) (e : EventId) (status : ConnEventStatus) : Conn :=
  c.setEvent e { c.events e with status := status }

def setError (c : Conn) (e : EventId) (error : Errno) : Conn :=
  c.setEvent e { c.events e with error := error }

end Conn

/-! ### The process function of an event -/

inductive ProcessMove where
  /-- `SocketSend` -/
  | send
  /-- `SocketReceive` obtains these octets -/
  | receive (data : List UInt8)
  /-- the first `count` octets of the receive buffer go to the consumer, `taken` are removed -/
  | deliver (count taken : ℕ)
  /-- the consumer's `ConnIOCB` is called -/
  | ioCallback
  /-- `connWriteEx` on the other conn of a `CONN_EVENT_READ_TO_CONN` -/
  | connWrite
  /-- `ce->transferred` is set -/
  | transfer (transferred : ℕ)
  | connectStart (number : Option ℕ) (err : Errno)
  | disconnectStart
  | shutdown (ret : SslResult)
  /-- the return -/
  | ret (err : Errno) (blockedOn : SocketEventType)
  deriving DecidableEq, Repr

/-- The error and `blockedOn` that `drainWire` returns when its last `SocketReceive` fails with `err`. -/
def drainWire (err : Errno) : Errno × SocketEventType :=
  if err = Errno.econnclosedbypeer then (0, .none)
  else if err = Errno.ewouldblock then (Errno.ewouldblock, .readable)
  else (err, .none)

/-- `SocketReceive` into the receive buffer -/
def fillRecvBuffer (c : Conn) (e : EventId) (data : List UInt8) : Conn :=
  { c with
    receiveBuffer := c.receiveBuffer ++ data.map fun o => Octet.mk o c.sp.sslConn.isSome }.note
    (.io e (socketReceive c.sp))

/-- The return of `socketEventProcess` for an event that calls the socket itself. -/
def processReturn (c : Conn) (e : EventId) (err : Errno) (blockedOn : SocketEventType) :
    Option (Errno × SocketEventType) :=
  match c.typeOf e with
  | .connect => if (c.events e).status = .inProgress then some (0, .none) else none
  | .disconnect => if (c.events e).status = .inProgress then some (drainWire err) else none
  | .accept => some (Errno.econniobug, .none)
  | t =>
    if t.eventClass = .connect then none
    else if blockedOn = .connect ∨ blockedOn = .disconnect then none
    else some (err, blockedOn)

/-- One step inside `socketEventProcess`; the first component is its return value and `blockedOn`. -/
def processMove (c : Conn) (e : EventId) :
    ProcessMove → Option (Option (Errno × SocketEventType) × Conn)
  | .send => if c.classOf e = .send then some (none, c.note (.io e (socketSend c.sp))) else none
  | .receive data =>
    if c.classOf e = .receive then some (none, fillRecvBuffer c e data)
    else if c.typeOf e = .disconnect ∧ (c.events e).status = .inProgress then
      some (none, c.note (.io e (socketReceive c.sp)))
    else none
  | .deliver count taken =>
    if c.classOf e = .receive then
      some (none, { c with receiveBuffer := c.receiveBuffer.drop taken }.note
        (.deliver e (c.receiveBuffer.take count)))
    else none
  | .ioCallback =>
    if c.typeOf e = .writeFromCb ∨ c.typeOf e = .readToCb then
      some (none, c.note (.io e .ioCallback))
    else none
  | .connWrite => if c.typeOf e = .readToConn then some (none, c.note (.io e .connWrite)) else none
  | .transfer transferred =>
    if c.classOf e = .connect then none
    else some (none, c.setEvent e { c.events e with transferred := transferred })
  | .connectStart number err =>
    if c.typeOf e = .connect ∧ (c.events e).status ≠ .inProgress then
      let (r, sp) := socketSyncConnectStart c.sp number err
      some (some r, { c with sp := sp }.note (.io e .connectStart))
    else none
  | .disconnectStart =>
    if c.typeOf e = .disconnect ∧ (c.events e).status ≠ .inProgress then
      -- the receive buffer is drained first
      let c := { c with receiveBuffer := [] }
      if c.sp.number = none then some (some (0, .none), c)
      else some (some socketSyncDisconnectStart, c.note (.io e .disconnectStart))
    else none
  | .shutdown ret =>
    if c.typeOf e = .sslDisconnect then
      let (r, sp) := socketSSLDisconnect c.sp ret
      some (some r, { c with sp := sp }.note (.io e .sslShutdown))
    else none
  | .ret err blockedOn => (processReturn c e err blockedOn).map fun r => (some r, c)

/-! ### The thread around it -/

/-- Where a thread is between two holds of the event lock. -/
inductive Stage where
  /-- about to destroy the free list it grabbed -/
  | destroying (freeList : List EventId)
  /-- about to test `ce->error` -/
  | starting
  /-- inside `socketEventProcess` -/
  | processing
  /-- inside `socketEventProcess` of a handshake that found the receive buffer empty -/
  | handshaking
  /-- `socketEventProcess` returned `EWOULDBLOCK`; about to test the problem -/
  | blocked (blockedOn : SocketEventType)
  /-- about to hand the event to the engine -/
  | submitting (blockedOn : SocketEventType)
  /-- about to call `socketEventAbort` -/
  | aborting
  /-- about to choose the status from `ce->error` -/
  | aborted
  /-- `ConnEventProcess` has returned -/
  | returned (status : ConnEventStatus)
  deriving DecidableEq, Repr

inductive StageMove where
  | destroy
  | test
  | process (m : ProcessMove)
  /-- a handshake tests the receive buffer -/
  | checkBuffer
  /-- `SocketSSLAccept` or `SocketSSLConnect` -/
  | handshake (new : Option ℕ) (ret : SslResult)
  /-- hand the event over; `epollErr` is the errno of `epoll_ctl` -/
  | submit (epollErr : Errno)
  | abort
  | judge
  deriving DecidableEq, Repr

/-- The status `EventProcess` returns after an abort. -/
def abortStatus (ce : ConnEvent) : ConnEventStatus :=
  if ce.error = Errno.etimedout then .timedOut
  else if ce.error = Errno.emsgsize ∧ ce.partialOk then .partialResult
  else .failed

theorem abortStatus_ne_complete (ce : ConnEvent) : abortStatus ce ≠ .complete := by
  unfold abortStatus
  split
  · exact ConnEventStatus.noConfusion
  · split <;> exact ConnEventStatus.noConfusion

/-- The end of `ConnEventProcess` for a status other than `CONN_EVENT_IN_PROGRESS`. -/
def connEventProcessEnd (c : Conn) (e : EventId) (status : ConnEventStatus) : Stage × Conn :=
  (.returned status, (connEventFreeResources c e).setStatus e status)

/-- What `EventProcess` does when `socketEventProcess` has returned. -/
def processReturned (c : Conn) (e : EventId) : Errno × SocketEventType → Stage × Conn
  | (err, blockedOn) =>
    if err = 0 then connEventProcessEnd (socketEventComplete c e) e .complete
    else if err = Errno.ewouldblock then (.blocked blockedOn, c)
    else (.aborting, c.setError e err)

/-- Hand the event to the socket engine. -/
def submitToEngine (c : Conn) (e : EventId) (blockedOn : SocketEventType) (epollErr : Errno) :
    Stage × Conn :=
  let c := c.setStatus e .inProgress
  match socketEventWaitEx c.sp blockedOn e epollErr with
  | (0, sp) => (.returned .inProgress, { c with sp := sp }.note (.wait e))
  | (err, sp) => (.aborting, ({ c with sp := sp }.setStatus e .failed).setError e err)

/-- The next step of a thread that processes `e`. -/
def eventProcessStep (c : Conn) (e : EventId) : Stage → StageMove → Option (Stage × Conn)
  | .destroying freeList, .destroy => some (.starting, connEventFreeListDestroy c freeList)
  | .starting, .test => some (if (c.events e).error = 0 then .processing else .aborting, c)
  | .processing, .process m =>
    match processMove c e m with
    | some (none, c) => some (.processing, c)
    | some (some r, c) => some (processReturned c e r)
    | none => none
  | .processing, .checkBuffer =>
    if (c.typeOf e).isHandshake then
      if c.receiveBuffer = [] then some (.handshaking, c)
      else some (processReturned c e (Errno.eoverflow, .none))
    else none
  | .handshaking, .handshake new ret =>
    let (r, sp) := sslConnect c.sp new ret
    some (processReturned ({ c with sp := sp }.note (.io e .sslHandshake)) e r)
  | .blocked blockedOn, .test =>
    if c.transaction.problem.isSome then some (.aborting, c.setError e Errno.ecanceled)
    else some (.submitting blockedOn, c)
  | .submitting blockedOn, .submit epollErr => some (submitToEngine c e blockedOn epollErr)
  | .aborting, .abort => some (.aborted, socketEventAbort c e)
  | .aborted, .judge => some (connEventProcessEnd c e (abortStatus (c.events e)))
  | _, _ => none

end Connio
