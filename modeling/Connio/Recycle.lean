import Connio.OutboundOrder
import Connio.SyncSlots

/-!
# Conns that are used again

One block of the pool of conns: it is created, handed out, used, freed and handed out again, any number of
times.

* `ConnHead` — the fields of `ConnectionPriv` up to its mutex that `Conn` leaves out;
* `ConnLife` — the block with all that runs on it;
* `ConnLife.connectionInit`, `ConnLife.created`, `ConnLife.connAllocEx`, `ConnLife.connFreeEx` — `ConnectionInit`,
  `ConnAllocCB`, `_ConnAllocEx` and `connFreeEx`;
* `LifeAction`, `lifeStep` — what happens to the block, and one step;
* `Resting`, `Recycled` — nothing works on the conn, and all of it is as `ConnectionInit` leaves it;
* `ConnLife.connAllocEx_recycled` — **PROVED**: `_ConnAllocEx` does not tell a recycled block from a new one.

A conn belongs to one thread of the consumer while events are queued on it; synchronous calls come from any number
of threads.  What was written and received on the earlier socket is the history of that socket: with a new one a new
history begins.
-/

namespace Connio

open Connio.Lib

/-! ### The block -/

/-- `SocketTimeout` values of a conn or of its handle -/
structure Timeouts where
  receive : Int
  send : Int
  connect : Int
  disconnect : Int
  deriving DecidableEq, Repr

/-- The union `async.cb` -/
inductive AsyncCb where
  | unset
  | submit (qSuccess : ℕ) (qFailure : Option ℕ)
  | listen (accept acceptContext listen : ℕ)
  deriving DecidableEq, Repr

/-- The fields before `async.transaction`; `none` is the NULL pointer. -/
structure ConnHead where
  created : Option CodeSource := none
  lastUsed : Option CodeSource := none
  clientData : Option ℕ := none
  clientFree : Option ℕ := none
  shutdownCallback : Option ℕ := none
  listNext : Option ℕ := none
  listPrevious : Option ℕ := none
  timeout : Timeouts := ⟨0, 0, 0, 0⟩
  cb : AsyncCb := .unset
  deriving DecidableEq, Repr

structure ConnLife where
  out : OutSystem
  /-- the synchronous calls of the consumer's threads that hold a slot -/
  calls : List SyncCall
  head : ConnHead
  marked : BitVec 32
  /-- `connHandle->timeOut` -/
  timeOut : Timeouts

namespace ConnLife

variable (s : ConnLife)

def conn : Conn := s.out.sys.conn

/-- Another conn in the same block. -/
def setConn (c : Conn) : ConnLife := { s with out.sys.conn := c }

/-! ### Beginning and end -/

/-- `ConnectionInit` -/
def connectionInit : ConnLife :=
  { s with
    head := { timeout := s.timeOut }
    marked := 0
    out.buffer := []
    out.sys.conn.transaction := {}
    out.sys.conn.activeEvent := ⟨none, none, none⟩
    out.sys.conn.qFailure := false
    out.sys.conn.state := .cached
    out.sys.conn.sendBuffer := none
    out.sys.conn.receiveBuffer := [] }

/-- `ConnAllocCB` on a new block, for a handle with these timeouts and flags. -/
def created (timeOut : Timeouts) (shuttingDown waitForSubmit : Bool) : ConnLife :=
  connectionInit
    { out :=
        { sys := { AsyncSystem.new none with
            conn := { connAlloc none with state := .free, shuttingDown := shuttingDown, waitForSubmit := waitForSubmit } }
          pending := none, work := .none, buffer := [], events := fun _ => { buffer := [] }
          writes := [], wire := [], before := fun _ => 0, reported := false }
      calls := [], head := {}, marked := 0, timeOut := timeOut }

/-- `_ConnAllocEx` with the socket `number`, or with the new SOCK that `SocketAlloc` returns; `previous` is the
tail of the list of conns in use.  The history of the SOCK begins, and the memory of earlier events, which nothing
refers to any more, is forgotten. -/
def connAllocEx (number : Option ℕ) (source : CodeSource) (previous : Option ℕ) : ConnLife :=
  { s with
    out.sys.conn.sp := { number := number }
    head.created := some source
    out.sys.conn.state := .idle
    head.listNext := none
    head.listPrevious := previous
    out.sys.conn.log := []
    out.sys.conn.events := (connAlloc none).events
    out.events := fun _ => { buffer := [] }
    out.writes := []
    out.wire := []
    out.before := fun _ => 0
    out.reported := false }

/-- What `connFreeEx` is given: the address of its event, and what its flush and its SSL disconnect meet. -/
structure FreeInput where
  event : EventId
  flush : FlushInput
  shutdown : ConnectInput

/-- An open conn is flushed, leaves its SSL session and is closed. -/
def hangUp (input : FreeInput) : Option ConnLife :=
  match s.out.syncConn.implicitFlush input.flush with
  | none => none
  | some (errno, _, c) =>
    let sp := if c.sp.sslConn.isSome then
        (connectEvent .sslDisconnect ⟨c.sp, c.receiveBuffer, false, errno⟩ input.shutdown).map fun r => r.2.sp
      else some c.sp
    sp.map fun sp =>
      { s with
        out.buffer := []
        out.wire := c.wire
        out.sys.conn.sendBuffer := none
        out.sys.conn.sp := socketClose sp }

/-- `SocketSSLAbort`, `SocketRelease` and `ConnListRemove`: the conn has no SOCK, which is written as one that is
closed. -/
def release : ConnLife :=
  { s with out.sys.conn.sp := {}, head.listNext := none, head.listPrevious := none }

/-- `SynchronousConnectEventRemove`, whose result is not looked at, and `ConnRecycle` -/
def connRecycle (e : EventId) : ConnLife :=
  match synchronousConnectEventRemove s.conn e with
  | .ok c => (s.setConn c).connectionInit
  | .error _ => s.connectionInit

/-- `connFreeEx`: its result, and the block. -/
def connFreeEx (input : FreeInput) : Option (Bool × ConnLife) :=
  match s.conn.state with
  | .free | .cached => some (false, s)
  | .synchronousListener | .asynchronousListener => some (true, s.release.connectionInit)
  | _ =>
    match synchronousConnectEventInsert s.conn input.event with
    | .error _ => some (false, s)
    | .ok c =>
      let t := s.setConn c
      (if c.sp.number.isSome then t.hangUp input else some t).map fun t => (true, t.release.connRecycle input.event)

end ConnLife

/-! ### What happens to a block -/

inductive LifeAction where
  /-- the pool hands the block out -/
  | alloc (number : Option ℕ) (source : CodeSource) (previous : Option ℕ)
  /-- a call of the consumer, a step of its threads, or one of the engine -/
  | use (a : OutAction)
  /-- `RememberAPICalls` -/
  | remember (source : CodeSource)
  /-- the consumer writes `pub.client` -/
  | client (data free : Option ℕ)
  /-- `ConnSetShutdownCallbackEx` -/
  | shutdownCallback (cb : Option ℕ)
  /-- the neighbours in the list of conns in use change -/
  | relink (next previous : Option ℕ)
  /-- `EventsSubmit` and `ConnAListenEx` write `async.cb` -/
  | callbacks (cb : AsyncCb)
  /-- `ConnMarkEx` -/
  | mark (mark : BitVec 32)
  /-- `ConnUnmarkEx` -/
  | unmark (mark : BitVec 32)
  /-- a thread enters a synchronous call -/
  | syncInsert (kind : ConnEventClass) (e : EventId)
  /-- what a synchronous call leaves in the buffers and on the socket, and what it sends -/
  | syncIo (sendBuffer : Option (List UInt8)) (receiveBuffer : List Octet) (sp : SOCK) (sent : List UInt8)
  /-- a thread leaves its synchronous call -/
  | syncRemove (h : SyncCall)
  /-- `ConnListenEx` has found the socket listening -/
  | listen
  /-- `synchronousListenerClose` -/
  | closeListener
  /-- `ConnAListenEx` starts its event -/
  | aListen (e : EventId)
  /-- the event ends: in `AsyncListenerCallback`, which closes the socket, or because it could not be started -/
  | aListenEnd (closed : Bool)
  /-- `connFreeEx` -/
  | free (input : ConnLife.FreeInput)

/-- The actions on the handle of the conn. -/
def OutAction.onHandle : OutAction → Bool
  | .engine .shuttingDown | .engine (.waitForSubmit _) => true
  | _ => false

namespace ConnLife

variable (s : ConnLife)

/-- No call of the consumer on the queue is under way, and no callback is due. -/
def AtRest : Prop := s.out.Returned ∧ s.out.sys.completions = []

instance : Decidable s.AtRest := inferInstanceAs (Decidable (_ ∧ _))

/-- The conn is free for its queue: it is idle with empty slots, or the queue is at work. -/
def Queueing : Prop :=
  (s.conn.state = .idle ∧ connEventsInProgress s.conn = false) ∨ s.conn.state = .asynchronousClient ∨
    s.conn.state = .asynchronousEngine ∨ s.conn.state = .asynchronousEngineComplete

instance : Decidable s.Queueing := inferInstanceAs (Decidable (_ ∨ _))

/-- What the consumer owes when it frees an idle conn: no other call of its own uses it, and the callback of its
transaction has been called (`connio.h`).  The event of a listener has left the engine (`SocketIsIdle`). -/
def MayFree : Prop :=
  (s.conn.state = .idle → s.out.Returned ∧ ∀ x ∈ s.out.sys.completions, x = .starting) ∧
    s.conn.state ≠ .asynchronousListener

instance : Decidable s.MayFree := inferInstanceAs (Decidable (_ ∧ _))

/-- A synchronous call enters. -/
def syncInsert (kind : ConnEventClass) (e : EventId) : ConnLife :=
  match SyncCall.insert s.conn kind e with
  | .ok (h, c) =>
    { s.setConn c with
      out.buffer := if c.sendBuffer = none then [] else s.out.buffer
      calls := h :: s.calls }
  | .error _ => s

/-- A synchronous call leaves. -/
def syncRemove (h : SyncCall) : ConnLife :=
  match SyncCall.remove s.conn h with
  | .ok c => { s.setConn c with calls := s.calls.erase h }
  | .error _ => { s with calls := s.calls.erase h }

/-- A synchronous call works. -/
def syncIo (sendBuffer : Option (List UInt8)) (receiveBuffer : List Octet) (sp : SOCK) (sent : List UInt8) :
    ConnLife :=
  { s with
    out.buffer := sendBuffer.getD []
    out.wire := s.out.wire ++ sent
    out.sys.conn.sendBuffer := sendBuffer.map List.length
    out.sys.conn.receiveBuffer := receiveBuffer
    out.sys.conn.sp := { sp with event := s.conn.sp.event } }

end ConnLife

/-- **One step.**  The consumer does not touch a conn that it has freed. -/
def lifeStep (s : ConnLife) : LifeAction → Option ConnLife
  | .alloc number source previous =>
    if s.conn.state = .cached then some (s.connAllocEx number source previous) else none
  | .use a =>
    if s.Queueing ∨ a.onHandle = true then (outStep s.out a).map fun out => { s with out := out } else none
  | .remember source => if s.conn.state ≠ .cached then some { s with head.lastUsed := some source } else none
  | .client data free =>
    if s.conn.state ≠ .cached then some { s with head.clientData := data, head.clientFree := free } else none
  | .shutdownCallback cb => if s.conn.state ≠ .cached then some { s with head.shutdownCallback := cb } else none
  | .relink next previous =>
    if s.conn.state ≠ .cached then some { s with head.listNext := next, head.listPrevious := previous } else none
  | .callbacks cb => if s.conn.state ≠ .cached then some { s with head.cb := cb } else none
  | .mark mark => if s.conn.state ≠ .cached then some { s with marked := s.marked ||| mark } else none
  | .unmark mark => if s.conn.state ≠ .cached then some { s with marked := s.marked &&& ~~~mark } else none
  | .syncInsert kind e =>
    if s.conn.state ≠ .cached ∧ (s.conn.state = .idle → s.AtRest) ∧ ∀ h ∈ s.calls, h.event ≠ e then
      some (s.syncInsert kind e)
    else none
  | .syncIo sendBuffer receiveBuffer sp sent =>
    if s.calls ≠ [] then some (s.syncIo sendBuffer receiveBuffer sp sent) else none
  | .syncRemove h => if h ∈ s.calls then some (s.syncRemove h) else none
  | .listen =>
    if s.conn.state = .idle ∧ s.Queueing ∧ s.AtRest then
      some (s.setConn (connChangeState s.conn .synchronousListener))
    else none
  | .closeListener =>
    if s.conn.state = .synchronousListener then
      some (s.setConn (connChangeState { s.conn with sp := socketClose s.conn.sp } .idle))
    else none
  | .aListen e =>
    if s.conn.state = .idle ∧ s.Queueing ∧ s.AtRest then
      some (s.setConn (slotSet (connChangeState s.conn .asynchronousListener) .connect e))
    else none
  | .aListenEnd closed =>
    if s.conn.state = .asynchronousListener then
      let c := connChangeState (slotClear s.conn .connect) .idle
      some (s.setConn { c with sp := if closed then socketClose c.sp else c.sp })
    else none
  | .free input => if s.MayFree then (s.connFreeEx input).map Prod.snd else none

/-! ### Conns in the cache -/

/-- Nothing works on the conn: no thread of the library, no callback, and no call of the consumer. -/
structure Resting (s : ConnLife) : Prop where
  workers : s.out.sys.workers = []
  callbacks : s.out.sys.callbacks = []
  completions : s.out.sys.completions = []
  caller : s.out.sys.caller = []
  refused : s.out.sys.refused = []
  returned : s.out.Returned
  calls : s.calls = []

/-- **A conn in the cache:** everything up to the mutex, and what comes after it but the SOCK, is as `ConnectionInit`
leaves it for a new conn, and nothing works on it. -/
structure Recycled (s : ConnLife) : Prop where
  head : s.head = { timeout := s.timeOut }
  /-- nothing is queued, nothing on the free list, no problem, no thread, no octets counted -/
  transaction : s.conn.transaction = {}
  active : s.conn.activeEvent = ⟨none, none, none⟩
  qFailure : s.conn.qFailure = false
  state : s.conn.state = .cached
  sendBuffer : s.conn.sendBuffer = none
  buffer : s.out.buffer = []
  receiveBuffer : s.conn.receiveBuffer = []
  marked : s.marked = 0
  resting : Resting s

namespace ConnLife

/-- What `ConnectionInit` leaves, when nothing works on the conn. -/
theorem connectionInit_recycled {s : ConnLife} (h : Resting s) : Recycled s.connectionInit :=
  ⟨rfl, rfl, rfl, rfl, rfl, rfl, rfl, rfl, rfl, { h with }⟩

theorem created_recycled (timeOut : Timeouts) (shuttingDown waitForSubmit : Bool) :
    Recycled (created timeOut shuttingDown waitForSubmit) :=
  connectionInit_recycled ⟨rfl, rfl, rfl, rfl, rfl, ⟨rfl, rfl⟩, rfl⟩

/-- **`_ConnAllocEx` does not tell a recycled block from a new one (proved).** -/
theorem connAllocEx_recycled {s : ConnLife} (h : Recycled s) (number : Option ℕ) (source : CodeSource)
    (previous : Option ℕ) :
    s.connAllocEx number source previous =
      (created s.timeOut s.conn.shuttingDown s.conn.waitForSubmit).connAllocEx number source previous := by
  obtain ⟨⟨⟨conn, workers, callbacks, completions, caller, refused⟩, pending, work, buffer, events, writes, wire,
    before, reported⟩, calls, head, marked, timeOut⟩ := s
  obtain ⟨cevents, transaction, active, state, sendBuffer, receiveBuffer, qFailure, shuttingDown, wait, sp, log⟩ := conn
  obtain ⟨hhead, htransaction, hactive, hfailure, hstate, hsend, hbuffer, hreceive, hmarked, hresting⟩ := h
  obtain ⟨hworkers, hcallbacks, hcompletions, hcaller, hrefused, ⟨hpending, hwork⟩, hcalls⟩ := hresting
  simp only [conn] at *
  subst hhead htransaction hactive hfailure hstate hsend hbuffer hreceive hmarked
  subst hworkers hcallbacks hcompletions hcaller hrefused hpending hwork hcalls
  rfl

end ConnLife

end Connio
