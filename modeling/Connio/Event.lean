import Connio.Lib.DoublyLinked

/-!
# The data model of a conn and its events

The records the asynchronous queue works on, under the source's names (`conniop.h`, `connio.h`):

* `ConnEventType`, `ConnEventClass`, `ConnEventStatus`, `ConnState`, `SocketEventType` — the enumerations;
* `ConnEvent` — one event, with the resources it owns (`args.buffer.start`, `ioBuffer`, the copied
  addresses) as "the pointer is not NULL";
* `Slots` — three named slots; `activeEvent` holds an event in each, `SOCK.event` a `SocketEvent`;
* `AsyncTransaction`, `Conn` — the transaction (queue, free list, problem, thread count) and the conn.

Events are named by an `EventId`, which stands for the address of the `ConnEvent`; `Conn.events` is the
heap.  A file name is the address of a string, so `CodeSource` holds two numbers.

`Conn.log` is the history of the conn, newest entry first.  The source writes such a history at the same
places (`LogConnEventEnqueue`, `LogConnEventNext`, `LogConnEventDone`, ...); no modelled function reads it.
-/

namespace Connio

open Connio.Lib

/-! ### Enumerations -/

/-- The address of a `ConnEvent`. -/
abbrev EventId := ℕ

/-- An `errno` value; `0` is no error. -/
abbrev Errno := ℕ

namespace Errno

def eperm : Errno := 1
def eintr : Errno := 4
def eio : Errno := 5
def ewouldblock : Errno := 11
def enomem : Errno := 12
def ebusy : Errno := 16
def einval : Errno := 22
def eoverflow : Errno := 75
def enotsock : Errno := 88
def emsgsize : Errno := 90
def econnreset : Errno := 104
def enobufs : Errno := 105
def eshutdown : Errno := 108
def enotconn : Errno := 107
def etimedout : Errno := 110
def ealready : Errno := 114
def ecanceled : Errno := 125
def econnclosedbypeer : Errno := 777
def econniobug : Errno := 778
def econniomode : Errno := 779
def econniocbshort : Errno := 781
def econniocblong : Errno := 782
def econnsslstart : Errno := 783
def econnalreadysecured : Errno := 784
def econnmoredata : Errno := 786
def econnhandleshutdown : Errno := 788

end Errno

inductive ConnEventClass where
  | connect
  | receive
  | send
  deriving DecidableEq, Repr

inductive ConnEventType where
  | accept
  | connect
  | disconnect
  | sslAccept
  | tlsAccept
  | sslConnect
  | tlsConnect
  | sslDisconnect
  | read
  | readCount
  | readUntilPattern
  | readToCb
  | readToConn
  | writeFromCb
  | writeFromClientBuffer
  | flush
  deriving DecidableEq, Repr

/-- Every call of `ConnEventAssign` pairs the type with this class. -/
def ConnEventType.eventClass : ConnEventType → ConnEventClass
  | .accept | .connect | .disconnect | .sslAccept | .tlsAccept | .sslConnect | .tlsConnect
  | .sslDisconnect => .connect
  | .read | .readCount | .readUntilPattern | .readToCb | .readToConn => .receive
  | .writeFromCb | .writeFromClientBuffer | .flush => .send

/-- The handshake events, whose pending `ssl.new` a cancel frees. -/
def ConnEventType.isHandshake : ConnEventType → Bool
  | .sslConnect | .tlsConnect | .sslAccept | .tlsAccept => true
  | _ => false

/-- The events a handle that is shutting down still lets into the queue. -/
def ConnEventType.isShutdown : ConnEventType → Bool
  | .disconnect | .sslDisconnect | .flush => true
  | _ => false

inductive ConnEventStatus where
  | queued
  | inProgress
  | partialResult
  | complete
  | timedOut
  | failed
  | killed
  deriving DecidableEq, Repr

inductive ConnState where
  | free
  | cached
  | idle
  | synchronous
  | asynchronousClient
  | asynchronousEngine
  | asynchronousEngineComplete
  | synchronousListener
  | asynchronousListener
  deriving DecidableEq, Repr

/-- The socket events of a conn; `SOCK_EVENT_TYPE_LISTEN` belongs to listeners only. -/
inductive SocketEventType where
  | none
  | readable
  | writable
  | connect
  | disconnect
  deriving DecidableEq, Repr

/-! ### Three named slots -/

/-- The three slots of `activeEvent` and of `SOCK.event`. -/
structure Slots (β : Type) where
  connect : β
  receive : β
  send : β
  deriving DecidableEq, Repr

namespace Slots

variable {β : Type}

def get (s : Slots β) : ConnEventClass → β
  | .connect => s.connect
  | .receive => s.receive
  | .send => s.send

def set (s : Slots β) : ConnEventClass → β → Slots β
  | .connect, v => { s with connect := v }
  | .receive, v => { s with receive := v }
  | .send, v => { s with send := v }

@[simp] theorem get_set_self (s : Slots β) (k : ConnEventClass) (v : β) : (s.set k v).get k = v := by
  cases k <;> rfl

theorem get_set_of_ne (s : Slots β) {k k' : ConnEventClass} (h : k' ≠ k) (v : β) :
    (s.set k v).get k' = s.get k' := by
  cases k <;> cases k' <;> first | rfl | exact absurd rfl h

end Slots

/-! ### Events -/

structure CodeSource where
  file : ℕ
  line : ℕ
  deriving DecidableEq, Repr

structure ConnEvent where
  type : ConnEventType
  source : CodeSource
  error : Errno := 0
  status : ConnEventStatus := .queued
  transferred : ℕ := 0
  inserted : Bool := false
  /-- `dataMode & CONN_READ_PARTIAL_OK` -/
  partialOk : Bool := false
  /-- `args.buffer.start` is not NULL -/
  bufferStart : Bool := false
  /-- `args.addr.dst` is not NULL -/
  addrDst : Bool := false
  /-- `args.addr.src` is not NULL -/
  addrSrc : Bool := false
  /-- `ioBuffer` is not NULL -/
  ioBuffer : Bool := false
  deriving DecidableEq, Repr

/-- `_AsyncProblem`: the first problem of a transaction. -/
structure AsyncProblem where
  status : ConnEventStatus
  error : Errno
  source : CodeSource
  deriving DecidableEq, Repr

structure AsyncSummary where
  status : ConnEventStatus
  sent : ℕ
  received : ℕ
  client : ℕ
  /-- error, file and line of the problem; `none` is the NULL pointer -/
  problem : Option (Errno × CodeSource)
  deriving DecidableEq, Repr

/-- One octet of the receive buffer; `secured` records that `sslReceive` obtained it. -/
structure Octet where
  value : UInt8
  secured : Bool
  deriving DecidableEq, Repr

/-- The calls an event's process function makes outside this layer; `secured` says that `SocketSend` and
`SocketReceive` go through the SSL session. -/
inductive IoCall where
  | socketSend (secured : Bool)
  | socketReceive (secured : Bool)
  | ioCallback
  | connWrite
  | connectStart
  | disconnectStart
  | sslHandshake
  | sslShutdown
  deriving DecidableEq, Repr

/-! ### The history of a conn -/

inductive LogEntry where
  /-- allocated -/
  | alloc (e : EventId)
  /-- linked at the tail of the queue -/
  | append (e : EventId)
  /-- moved from the queue to the free list -/
  | discard (e : EventId)
  /-- taken from the queue into its active slot -/
  | start (e : EventId)
  /-- taken out of its active slot with this result -/
  | leave (e : EventId) (status : ConnEventStatus) (error : Errno) (source : CodeSource)
  /-- marked cancelled -/
  | cancel (e : EventId)
  /-- put on the free list without being queued -/
  | drop (e : EventId)
  /-- taken over by `EventEnqueue` -/
  | accept (e : EventId)
  /-- left with the caller by `EventEnqueue` -/
  | refuse (e : EventId)
  /-- a problem is reported to the transaction -/
  | report (p : AsyncProblem)
  /-- a call of `ConnEventsProcess` begins -/
  | enter
  /-- a call of `ConnEventsProcess` falls through to the test of the state -/
  | lastTest (st : ConnState)
  /-- a call of `ConnEventsProcess` returns FALSE -/
  | done
  /-- `EventsSubmit` hands the conn to the engine -/
  | submit
  /-- `PrepareForCallback` ends the transaction -/
  | prepare (summary : AsyncSummary)
  /-- the consumer is called; `success` names the callback that was chosen -/
  | callback (success : Bool) (failureGiven : Bool) (summary : AsyncSummary)
  /-- the process function of the event makes a call -/
  | io (e : EventId) (call : IoCall)
  /-- octets of the receive buffer are given to the consumer -/
  | deliver (e : EventId) (data : List Octet)
  /-- the event is handed to the socket engine -/
  | wait (e : EventId)
  /-- the client buffer is given back -/
  | freeCB (e : EventId)
  /-- the send IOBuffer is freed -/
  | iobFree (e : EventId)
  /-- the memory of the event is freed -/
  | memFree (e : EventId)
  deriving DecidableEq, Repr

/-! ### The socket -/

structure SocketEvent where
  /-- `cb.arg` -/
  arg : Option EventId := none
  type : SocketEventType := .none
  error : Errno := 0
  /-- `FSE_IN_ENGINE` -/
  inEngine : Bool := false
  /-- threads begun with `HandleSocketEvent` that have not run yet -/
  begun : ℕ := 0
  deriving DecidableEq, Repr

structure SOCK where
  /-- `none` is `SOCKET_INVALID` -/
  number : Option ℕ := none
  sslNew : Option ℕ := none
  sslConn : Option ℕ := none
  event : Slots SocketEvent := ⟨{}, {}, {}⟩
  deriving DecidableEq, Repr

/-! ### The conn -/

structure AsyncTransaction where
  queue : DList EventId := DList.empty
  freeList : List EventId := []
  sent : ℕ := 0
  received : ℕ := 0
  client : ℕ := 0
  problem : Option AsyncProblem := none
  threads : ℕ := 0
  sslEnabled : Bool := false

structure Conn where
  events : EventId → ConnEvent
  transaction : AsyncTransaction
  activeEvent : Slots (Option EventId)
  state : ConnState
  /-- the octets in `sendBuffer`; `none` is the NULL pointer -/
  sendBuffer : Option ℕ
  /-- the octets in `receiveBuffer` -/
  receiveBuffer : List Octet
  /-- `async.cb.qFailure` is not NULL -/
  qFailure : Bool
  /-- `connHandle->shuttingDown` -/
  shuttingDown : Bool
  /-- `connHandle->flags.dynamic & CONN_HANDLE_DYN_FLAG_WAIT_FOR_SUBMIT` -/
  waitForSubmit : Bool
  sp : SOCK
  log : List LogEntry

namespace Conn

/-- Write an entry to the history. -/
def note (c : Conn) (x : LogEntry) : Conn := { c with log := x :: c.log }

/-- Write one event. -/
def setEvent (c : Conn) (e : EventId) (ce : ConnEvent) : Conn :=
  { c with events := Function.update c.events e ce }

/-- The type of an event. -/
def typeOf (c : Conn) (e : EventId) : ConnEventType := (c.events e).type

/-- The class of an event. -/
def classOf (c : Conn) (e : EventId) : ConnEventClass := (c.typeOf e).eventClass

end Conn

end Connio
