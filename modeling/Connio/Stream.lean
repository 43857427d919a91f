import Connio.RecycleInv
import Connio.Session

/-!
# Reads and handshakes on one conn

One conn with its queue and its threads, and the synchronous calls of any number of threads.  A synchronous call
processes its events step by step, as a thread of the queue does, and waits where that one hands its event over.

* `SyncTask` — the event of a synchronous call, and where its thread is;
* `StreamSystem`, `StreamAction`, `streamStep` — the conn with all that runs on it, and one step;
* `Book`, `Recorded`, `recordedStep` — what has been received, handed to the consumer and exchanged on the socket;
* `tlsRun`, `endRun`, `sendRun` — the actions of a handshake, of the end of a transaction and of a write, for runs on
  fixed inputs.

A conn belongs to one thread of the consumer while events are queued on it; synchronous calls come from any number of
threads, and `ConnCancel` from any thread.
-/

namespace Connio

open Connio.Lib

/-! ### The system -/

/-- The `ConnEvent` on the stack of a synchronous call, and where its thread is in `ConnEventProcess`. -/
structure SyncTask where
  ce : ConnEvent
  stage : Stage
  deriving DecidableEq, Repr

/-- After `_ConnEventInit` no event is being processed. -/
def SyncTask.init : SyncTask := ⟨{ type := .flush, source := ⟨0, 0⟩ }, .returned .complete⟩

def Stage.isReturned : Stage → Bool
  | .returned _ => true
  | _ => false

structure StreamSystem where
  sys : AsyncSystem
  /-- the synchronous calls that hold a slot -/
  calls : List SyncCall
  /-- by the address of the event -/
  task : EventId → SyncTask

inductive StreamAction where
  /-- a step of the queue, of its threads, or of the engine -/
  | async (a : AsyncAction)
  /-- a thread enters a synchronous call -/
  | enter (kind : ConnEventClass) (e : EventId)
  /-- `ConnEventAssign` on the event of the call -/
  | assign (h : SyncCall) (ce : ConnEvent)
  /-- a step inside `ConnEventProcess` -/
  | work (h : SyncCall) (m : StageMove)
  /-- `SocketWait` returns -/
  | wait (h : SyncCall) (answer : Option Errno)
  /-- an event in mode `CONN_EVENT_MODE_SYNCHRONOUS_NON_BLOCKING` does not wait -/
  | giveUp (h : SyncCall)
  /-- the call fills or takes the send buffer -/
  | sendBuffer (h : SyncCall) (used : Option ℕ)
  /-- `connKillEx` or `ConnHandleConnectionsAbortEx` -/
  | close (source : CodeSource)
  /-- a thread leaves its synchronous call -/
  | leave (h : SyncCall)

/-- The events a call assigns: its own, and the flush before it. -/
def SyncCall.serves (h : SyncCall) (type : ConnEventType) : Bool :=
  decide (type.eventClass = h.kind) || decide (type = .flush)

/-- `connIsNotSecured` and `connIsSecured`, which the calls test while they hold the connect slot. -/
def Conn.permits (c : Conn) : ConnEventType → Bool
  | .sslConnect | .tlsConnect | .sslAccept | .tlsAccept | .disconnect => c.sp.sslConn.isNone
  | .sslDisconnect => c.sp.sslConn.isSome
  | .accept => false
  | _ => true

namespace StreamSystem

variable (s : StreamSystem)

def conn : Conn := s.sys.conn

/-- Another conn. -/
def setConn (c : Conn) : StreamSystem := { s with sys.conn := c }

/-- Another event, or another place of its thread. -/
def setTask (h : SyncCall) (ce : ConnEvent) (stage : Stage) : StreamSystem :=
  { s with task := Function.update s.task h.event ⟨ce, stage⟩ }

@[simp] theorem setTask_task (h : SyncCall) (ce : ConnEvent) (stage : Stage) :
    (s.setTask h ce stage).task h.event = ⟨ce, stage⟩ := Function.update_self _ _ _

/-- The conn with the event of a call. -/
def callConn (h : SyncCall) : Conn := s.conn.setEvent h.event (s.task h.event).ce

/-- The conn is free for its queue: it is idle with empty slots, or the queue is at work. -/
def Queueing : Prop :=
  (s.conn.state = .idle ∧ connEventsInProgress s.conn = false) ∨ s.conn.state = .asynchronousClient ∨
    s.conn.state = .asynchronousEngine ∨ s.conn.state = .asynchronousEngineComplete

instance : Decidable s.Queueing := inferInstanceAs (Decidable (_ ∨ _))

/-- A thread enters a synchronous call. -/
def enter (kind : ConnEventClass) (e : EventId) : Option StreamSystem :=
  match SyncCall.insert s.conn kind e with
  | .ok (h, c) => some { s.setConn c with calls := h :: s.calls, task := Function.update s.task e .init }
  | .error _ => none

/-- A step of `ConnEventProcess` for the event of a call. -/
def work (h : SyncCall) (m : StageMove) : Option StreamSystem :=
  (eventProcessStep (s.callConn h) h.event (s.task h.event).stage m).map fun (stage, c) =>
    { s.setConn { s.conn with
        sp := { c.sp with event := s.conn.sp.event }
        sendBuffer := s.conn.sendBuffer
        receiveBuffer := c.receiveBuffer } with
      task := Function.update s.task h.event ⟨c.events h.event, stage⟩ }

/-- `SocketWait` has returned `err`. -/
def waited (h : SyncCall) (err : Errno) : StreamSystem :=
  if err = 0 then s.setTask h { (s.task h.event).ce with status := .inProgress } .processing
  else s.setTask h { (s.task h.event).ce with error := err } .aborting

/-- A thread leaves its synchronous call. -/
def leave (h : SyncCall) : StreamSystem :=
  match SyncCall.remove s.conn h with
  | .ok c => { s.setConn c with calls := s.calls.erase h }
  | .error _ => { s with calls := s.calls.erase h }

end StreamSystem

/-- **One step.** -/
def streamStep (s : StreamSystem) : StreamAction → Option StreamSystem
  | .async a => if s.Queueing then (asyncStep s.sys a).map fun sys => { s with sys := sys } else none
  | .enter kind e => if ∀ h ∈ s.calls, h.event ≠ e then s.enter kind e else none
  | .assign h ce =>
    if h ∈ s.calls ∧ (s.task h.event).stage.isReturned ∧ h.serves ce.type ∧ s.conn.permits ce.type ∧ ce.assigned then
      some (s.setTask h ce .starting)
    else none
  | .work h m =>
    match (s.task h.event).stage with
    | .blocked _ => none
    | _ => if h ∈ s.calls then s.work h m else none
  | .wait h answer =>
    match (s.task h.event).stage with
    | .blocked blockedOn => if h ∈ s.calls then (socketWait blockedOn answer).map (s.waited h) else none
    | _ => none
  | .giveUp h =>
    match (s.task h.event).stage with
    | .blocked _ => if h ∈ s.calls ∧ h.kind = .receive then some (s.waited h Errno.ewouldblock) else none
    | _ => none
  | .sendBuffer h used =>
    if h ∈ s.calls then some (s.setConn { s.conn with sendBuffer := used }) else none
  | .close source =>
    if s.conn.state = .idle ∨ s.conn.state = .synchronous then some (s.setConn (connKillEx s.conn source)) else none
  | .leave h => if h ∈ s.calls ∧ (s.task h.event).stage.isReturned then some (s.leave h) else none

/-- A new conn, on which nothing has been received. -/
structure StreamSystem.Initial (s : StreamSystem) : Prop where
  sys : s.sys.Initial
  calls : s.calls = []
  sslConn : s.conn.sp.sslConn = none
  receiveBuffer : s.conn.receiveBuffer = []

/-- A new conn on socket `number`. -/
def StreamSystem.new (number : Option ℕ) : StreamSystem := ⟨AsyncSystem.new number, [], fun _ => .init⟩

theorem StreamSystem.new_initial (number : Option ℕ) : (StreamSystem.new number).Initial :=
  ⟨AsyncSystem.new_initial number, rfl, rfl, rfl⟩

/-! ### The book -/

/-- An octet that is handed to the consumer. -/
structure Delivery where
  /-- its place among all octets received -/
  index : ℕ
  octet : Octet
  /-- how many octets had been received when the last handshake completed -/
  sealedAt : Option ℕ
  /-- a session is established -/
  secured : Bool
  deriving DecidableEq, Repr

/-- A call of `SocketSend` or `SocketReceive`. -/
structure Exchange where
  /-- a session has been established on this socket, and no SSL disconnect has completed -/
  guarded : Bool
  /-- it goes through `sslSend` or `sslReceive` -/
  secured : Bool
  deriving DecidableEq, Repr

/-- What has happened on a conn; no step depends on it. -/
structure Book where
  /-- all octets that came into the receive buffer -/
  received : List Octet := []
  /-- how many had been received when the last handshake completed -/
  sealedAt : Option ℕ := none
  /-- the open socket on which a session has been established, until an SSL disconnect completes -/
  session : Option ℕ := none
  handed : List Delivery := []
  exchanges : List Exchange := []
  deriving DecidableEq, Repr

namespace StreamSystem

variable (s : StreamSystem)

/-- The conn, the event and the step of a thread inside `ConnEventProcess`. -/
def moving : StreamAction → Option (Conn × EventId × StageMove)
  | .async (.work w m) => some (s.conn, w.event, m)
  | .work h m => some (s.callConn h, h.event, m)
  | _ => none

/-- The octets that a step receives into the buffer -/
def obtained (a : StreamAction) : List Octet :=
  match s.moving a with
  | some (c, e, m) => m.obtained c e
  | none => []

/-- The octets that a step hands to the consumer -/
def delivered (a : StreamAction) : List Octet :=
  match s.moving a with
  | some (c, _, .process (.deliver count _)) => c.receiveBuffer.take count
  | _ => []

/-- The step calls `SocketSend` or `SocketReceive`. -/
def exchanges (a : StreamAction) : Bool :=
  match s.moving a with
  | some (_, _, .process .send) | some (_, _, .process (.receive _)) => true
  | _ => false

/-- The step completes an SSL disconnect. -/
def disconnects (a : StreamAction) : Bool :=
  match s.moving a with
  | some (c, e, .process (.shutdown .success)) => decide (c.typeOf e = .sslDisconnect) && c.sp.sslConn.isSome
  | _ => false

/-- `socketEventAbort` of an event of SSL -/
def abortsSession (a : StreamAction) : Bool :=
  match s.moving a with
  | some (c, e, .abort) => (c.typeOf e).abortsSession
  | _ => false

end StreamSystem

/-- Write a step from `s` to `t` into the book. -/
def Book.record (b : Book) (s : StreamSystem) (a : StreamAction) (t : StreamSystem) : Book where
  received := b.received ++ s.obtained a
  sealedAt := if s.conn.sp.sslConn = none ∧ t.conn.sp.sslConn ≠ none then some b.received.length else b.sealedAt
  session :=
    if s.conn.sp.sslConn = none ∧ t.conn.sp.sslConn ≠ none then t.conn.sp.number
    else if s.disconnects a = true ∨ t.conn.sp.number ≠ b.session then none
    else b.session
  handed := b.handed ++ (s.delivered a).mapIdx fun i o =>
    ⟨b.received.length - s.conn.receiveBuffer.length + i, o, b.sealedAt, s.conn.sp.sslConn.isSome⟩
  exchanges := b.exchanges ++ if s.exchanges a then [⟨b.session.isSome, s.conn.sp.sslConn.isSome⟩] else []

/-- The conn with its book. -/
structure Recorded where
  system : StreamSystem
  book : Book

/-- One step, written into the book. -/
def recordedStep (r : Recorded) (a : StreamAction) : Option Recorded :=
  (streamStep r.system a).map fun t => ⟨t, r.book.record r.system a t⟩

/-- A new conn with an empty book. -/
def Recorded.Initial (r : Recorded) : Prop := r.system.Initial ∧ r.book = {}

def Recorded.new (number : Option ℕ) : Recorded := ⟨.new number, {}⟩

theorem Recorded.new_initial (number : Option ℕ) : (Recorded.new number).Initial :=
  ⟨StreamSystem.new_initial number, rfl⟩

/-! ### Runs -/

/-- An event of TLS is queued, and its thread calls SSL. -/
def tlsRun (e : EventId) (freeList : List EventId) (ret : SslResult) : List StreamAction :=
  List.map StreamAction.async (queueRun e { type := .tlsConnect, source := ⟨0, 1⟩ } ++
    [.work ⟨e, .destroying freeList⟩ .destroy, .work ⟨e, .starting⟩ .test, .work ⟨e, .processing⟩ .checkBuffer,
      .work ⟨e, .handshaking⟩ (.handshake (some 9) ret)])

/-- The transaction ends without a failure. -/
def endRun : List StreamAction :=
  [.async (.submit true 7 ⟨0, 3⟩), .async .prepare]

/-- A synchronous flush sends. -/
def sendRun : List StreamAction :=
  [.enter .send 5, .assign ⟨.send, 5, false⟩ { type := .flush, source := ⟨0, 4⟩, ioBuffer := true },
    .work ⟨.send, 5, false⟩ .test, .work ⟨.send, 5, false⟩ (.process .send)]

end Connio
