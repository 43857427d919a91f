import Connio.AsyncApi
import Connio.Duplex
import Connio.Enqueue
import Connio.SendOrder
import Connio.SyncOrder

/-!
# The octets a consumer writes

One conn with all that runs on it, and the octets that one thread of the consumer writes, in synchronous and in
asynchronous calls.  Between two steps of this thread the engine and its threads may run.

* `Pending`, `ClientWork` — what the thread does next inside a call;
* `OutSystem`, `OutAction`, `outStep` — the conn with the octets in its send buffer, in its events and on the
  wire, and one step;
* `OutSystem.written`, `OutSystem.underway` — what has been written, and what is in send events;
* `Ordered` — nothing is lost, doubled or moved, and what was written before another event goes before it;
* `AsyncAction.isEngine`, `asyncStep_engine`, `asyncStep_left` — **PROVED**: what the steps of other threads do to
  the queue.
-/

namespace Connio

open Connio.Lib

/-! ### The system -/

/-- An event that has been assigned and is given to `EventEnqueue` next; `abort` is how its refusal is
reported. -/
structure Pending where
  event : EventId
  source : CodeSource
  abort : Bool
  deriving DecidableEq, Repr

/-- What is left of a write. -/
inductive ClientWork where
  | none
  /-- the loop of `writeClientData`, with the rest of the data -/
  | write (data : List UInt8) (source : CodeSource)
  /-- the buffer of `ConnAWriteFromBuffer`, which gets an event of its own -/
  | clientBuffer (data : List UInt8) (source : CodeSource)
  deriving DecidableEq, Repr

/-- The octets that are in no buffer and in no event yet. -/
def ClientWork.data : ClientWork → List UInt8
  | .none => []
  | .write data _ | .clientBuffer data _ => data

/-- A write that is refused ends; `ConnAWriteFromBuffer` goes on after its flush. -/
def ClientWork.refused : ClientWork → ClientWork
  | .clientBuffer data source => .clientBuffer data source
  | _ => .none

structure OutSystem where
  sys : AsyncSystem
  pending : Option Pending
  work : ClientWork
  /-- the octets in `sendBuffer` -/
  buffer : List UInt8
  /-- what the send events hold -/
  events : EventId → WriteState
  /-- all that has been written, in the order of the calls -/
  writes : List Written
  /-- all octets the transport has accepted -/
  wire : List UInt8
  /-- how many items were written before an event was requested -/
  before : EventId → ℕ
  /-- a call has reported an error -/
  reported : Bool

inductive OutAction where
  /-- a step of another thread, or of the engine -/
  | engine (a : AsyncAction)
  /-- a thread runs the process function of a send event, with the answers on the socket and in an SSL session -/
  | process (w : Worker) (clear : SendInput Errno) (ssl : SendInput SslResult)
  /-- `ConnAWrite` -/
  | aWrite (data : List UInt8) (source : CodeSource)
  /-- `ConnAWriteFromBuffer`, with the event that is allocated for what is buffered -/
  | aWriteFromBuffer (data : List UInt8) (source : CodeSource) (flush : Option EventId)
  /-- `ConnAWriteFromCB`; `memory` is what `IOBAlloc` answers -/
  | aWriteFromCB (count : ℕ) (source : CodeSource) (memory : Bool) (event : Option EventId)
  /-- `ConnAFlush` -/
  | aFlush (source : CodeSource) (flush : Option EventId)
  /-- a call that reads or connects assigns its event -/
  | request (e : EventId) (ce : ConnEvent)
  /-- a call fails before it has an event -/
  | fail (errno : Errno) (source : CodeSource)
  /-- one round of the loop of `writeClientData` -/
  | round (memory : Bool) (flush : Option EventId)
  /-- the client's buffer gets its event -/
  | largeBuffer (event : Option EventId)
  /-- `EventEnqueue` -/
  | enqueue (allocs : Allocs)
  /-- a synchronous call -/
  | sync (iob : IOBufferLib) (call : ConsumerCall)

/-- The steps of the engine and of all threads but the consumer's; `socketEventProcess` of a send event is a step
of its own. -/
def AsyncAction.isEngine (c : Conn) : AsyncAction → Bool
  | .alloc _ _ | .enqueue (some _) _ _ | .enqueueFailure _ _ | .writeAbort _ | .sendBuffer _ _ | .free _ => false
  | .work w (.process _) => decide (c.classOf w.event ≠ .send)
  | _ => true

namespace OutSystem

variable (s : OutSystem)

/-- No call of the consumer is under way. -/
def Returned : Prop := s.pending = none ∧ s.work = .none

instance : Decidable s.Returned := inferInstanceAs (Decidable (_ ∧ _))

/-! ### Asynchronous calls -/

/-- An error is reported. -/
def report (a : AsyncAction) : Option OutSystem :=
  (asyncStep s.sys a).map fun sys => { s with sys := sys, reported := true }

/-- `ConnEventAssign` for a new event that holds `held`. -/
def assign (e : EventId) (ce : ConnEvent) (held : WriteState) (abort : Bool) : Option OutSystem :=
  (asyncStep s.sys (.alloc e ce)).map fun sys =>
    { s with
      sys := sys
      pending := some ⟨e, ce.source, abort⟩
      events := Function.update s.events e held }

/-- The send buffer is taken. -/
def take : Option OutSystem :=
  (asyncStep s.sys (.sendBuffer false none)).map fun sys => { s with sys := sys, buffer := [] }

/-- `flushAEventCreate`; without memory the octets are gone, and `EventEnqueueFailure` reports it. -/
def flushAEventCreate (content : List UInt8) (source : CodeSource) (flush : Option EventId) : Option OutSystem :=
  match flush with
  | some f => s.assign f { type := .flush, source := source, ioBuffer := true } { buffer := content } false
  | none => s.report (.enqueueFailure Errno.enomem source)

/-- The send buffer is flushed when it holds data. -/
def flushBuffered (source : CodeSource) (flush : Option EventId) : Option OutSystem :=
  s.take.bind fun t => if s.buffer = [] then some t else t.flushAEventCreate s.buffer source flush

/-- The head of `writeClientData` -/
def beginWrite (data : List UInt8) (source : CodeSource) : Option OutSystem :=
  (asyncStep s.sys (.sendBuffer true s.sys.conn.sendBuffer)).map fun sys =>
    { s with
      sys := sys
      work := if data = [] then .none else .write data source
      writes := s.writes ++ data.map Written.octet }

/-- One round of the loop of `writeClientData` -/
def writeRound (data : List UInt8) (source : CodeSource) (memory : Bool) (flush : Option EventId) :
    Option OutSystem :=
  if s.sys.conn.sendBuffer = none ∧ memory = false then
    { s with work := .none }.report (.enqueueFailure Errno.enomem source)
  else if data.length < connIobSize - s.buffer.length then
    (s.sys.bufferedSendDataKeep (s.buffer.length + data.length)).map fun sys =>
      { s with sys := sys, work := .none, buffer := s.buffer ++ data }
  else
    -- the buffer is full
    s.take.bind fun t =>
      { t with work := .write (data.drop (connIobSize - s.buffer.length)) source }.flushAEventCreate
        (s.buffer ++ data.take (connIobSize - s.buffer.length)) source flush

/-- `ConnAWriteFromBuffer` with a buffer that does not fit into an IOBuffer -/
def beginLargeBuffer (data : List UInt8) (source : CodeSource) (flush : Option EventId) : Option OutSystem :=
  { s with work := .clientBuffer data source, writes := s.writes ++ data.map Written.octet }.flushBuffered source flush

/-- The client's buffer gets its event; without memory the queue is aborted. -/
def largeBuffer (data : List UInt8) (source : CodeSource) (event : Option EventId) : Option OutSystem :=
  match event with
  | some e =>
    { s with work := .none }.assign e { type := .writeFromClientBuffer, source := source, bufferStart := true }
      { buffer := data } true
  | none => { s with work := .none }.report (.writeAbort source)

/-- `ConnAWriteFromCB`: the event takes over the send buffer. -/
def writeFromCB (count : ℕ) (source : CodeSource) (memory : Bool) (event : Option EventId) : Option OutSystem :=
  match event, AsyncSystem.bufferedSendDataTake s.sys.conn memory with
  | some e, some _ =>
    s.take.bind fun t =>
      { t with writes := s.writes ++ [Written.callback e] }.assign e
        { type := .writeFromCb, source := source, ioBuffer := true }
        { buffer := s.buffer, count := count } false
  | some e, none => do
    -- the event is freed before it was assigned
    let sys ← asyncStep s.sys (.alloc e { type := .accept, source := source })
    let sys ← asyncStep sys (.free e)
    { s with sys := sys }.report (.enqueueFailure Errno.enomem source)
  | none, _ => s.report (.enqueueFailure Errno.enomem source)

/-- `EventEnqueue`; an event that is refused is freed, and the refusal is reported. -/
def enqueue (p : Pending) (allocs : Allocs) : Option OutSystem :=
  (asyncStep s.sys (.enqueue (some p.event) allocs p.source)).bind fun sys =>
    if queueingPermitted s.sys.conn then
      if FlushNeeded s.sys.conn p.event then
        some { s with
          sys := sys
          pending := none
          buffer := []
          events := allocs.flush.elim s.events fun f => Function.update s.events f { buffer := s.buffer } }
      else some { s with sys := sys, pending := none }
    else
      (asyncStep sys (.free p.event)).bind fun sys =>
        { s with sys := sys, pending := none, work := s.work.refused }.report
          (if p.abort then .writeAbort p.source else .enqueueFailure (queueingErrno sys.conn) p.source)

/-! ### Synchronous calls -/

/-- The conn as a synchronous call sees it. -/
def syncConn : SyncConn where
  sp := s.sys.conn.sp
  sendBuffer := s.sys.conn.sendBuffer.map fun _ => s.buffer
  receiveBuffer := s.sys.conn.receiveBuffer.map Octet.value
  received := []
  wire := s.wire
  shuttingDown := s.sys.conn.shuttingDown

/-- The receive buffer after a call that has received `received` and left `left` octets in it. -/
def receiveBuffer (received : List UInt8) (left : ℕ) : List Octet :=
  let all := s.sys.conn.receiveBuffer ++ received.map fun o => ⟨o, s.sys.conn.sp.sslConn.isSome⟩
  all.drop (all.length - left)

/-- The conn after a synchronous call, which leaves the engine's part of the socket alone. -/
def synced (r : SyncReturn) : Conn :=
  { s.sys.conn with
    sp := { r.conn.sp with event := s.sys.conn.sp.event }
    sendBuffer := r.conn.sendBuffer.map List.length
    receiveBuffer := s.receiveBuffer r.conn.received r.conn.receiveBuffer.length }

/-- A synchronous call has returned. -/
def afterSync (call : ConsumerCall) (r : SyncReturn) : OutSystem :=
  { s with
    sys := { s.sys with conn := s.synced r }
    buffer := r.conn.buffered
    writes := s.writes ++ (call.written r).map Written.octet
    wire := r.conn.wire
    reported := s.reported || decide (r.errno ≠ 0 ∨ r.result = some false) }

/-! ### Send events -/

/-- `socketEventProcess` of the send event `e`, on the wire of the conn -/
def sendProcess (e : EventId) (clear : SendInput Errno) (ssl : SendInput SslResult) : Option WriteReturn :=
  if s.sys.conn.sp.sslConn.isSome then
    sendEventProcess sslSend (s.sys.conn.typeOf e) { s.events e with sent := s.wire } ssl
  else sendEventProcess clearSend (s.sys.conn.typeOf e) { s.events e with sent := s.wire } clear

/-- A thread runs the process function of its send event. -/
def process (w : Worker) (clear : SendInput Errno) (ssl : SendInput SslResult) : Option OutSystem :=
  if s.sys.conn.classOf w.event = .send then
    (s.sendProcess w.event clear ssl).bind fun r =>
      (asyncStep s.sys (.work w (.process (.ret r.1.1 r.1.2)))).map fun sys =>
        { s with sys := sys, events := Function.update s.events w.event r.2, wire := r.2.sent }
  else none

end OutSystem

/-- **One step.** -/
def outStep (s : OutSystem) : OutAction → Option OutSystem
  | .engine a =>
    if a.isEngine s.sys.conn then (asyncStep s.sys a).map fun sys => { s with sys := sys } else none
  | .process w clear ssl => s.process w clear ssl
  | .aWrite data source => if s.Returned then s.beginWrite data source else none
  | .aWriteFromBuffer data source flush =>
    if s.Returned then
      if data.length < connIobSize then s.beginWrite data source else s.beginLargeBuffer data source flush
    else none
  | .aWriteFromCB count source memory event =>
    if s.Returned then s.writeFromCB count source memory event else none
  | .aFlush source flush => if s.Returned then s.flushBuffered source flush else none
  | .request e ce =>
    if s.Returned ∧ ce.type.eventClass ≠ .send then
      { s with before := Function.update s.before e s.writes.length }.assign e ce { buffer := [] } false
    else none
  | .fail errno source => if s.Returned then s.report (.enqueueFailure errno source) else none
  | .round memory flush =>
    match s.pending, s.work with
    | none, .write data source => s.writeRound data source memory flush
    | _, _ => none
  | .largeBuffer event =>
    match s.pending, s.work with
    | none, .clientBuffer data source => s.largeBuffer data source event
    | _, _ => none
  | .enqueue allocs => s.pending.bind fun p => s.enqueue p allocs
  | .sync iob call =>
    -- a synchronous call needs an idle conn
    if s.Returned ∧ s.sys.conn.state = .idle then (call.run iob s.syncConn).map fun r => s.afterSync call r
    else none

/-- A new conn, on which nothing has been written. -/
structure OutSystem.Initial (s : OutSystem) : Prop where
  sys : s.sys.Initial
  returned : s.Returned
  sendBuffer : s.sys.conn.sendBuffer = none
  buffer : s.buffer = []
  writes : s.writes = []
  wire : s.wire = []
  before : ∀ e, s.before e = 0

/-! ### The order of the octets -/

namespace OutSystem

variable (s : OutSystem)

/-- What is known of the octets of the conn. -/
def outgoing : Outgoing where
  writes := s.writes
  supplied := fun e => (s.events e).supplied
  content := fun e => (s.events e).buffer
  wire := s.wire
  before := s.before

/-- **All octets the consumer has written,** in the order of its calls. -/
def written : List UInt8 := octets s.outgoing.supplied s.writes

/-- The octets written before `e` was requested. -/
def writtenBefore (e : EventId) : List UInt8 := octets s.outgoing.supplied (s.writes.take (s.before e))

/-- The send event that is queued next. -/
def awaiting : List EventId := sends s.sys.conn.typeOf (s.pending.toList.map Pending.event)

/-- What the active send event and those of `l` hold. -/
def held (l : List EventId) : List UInt8 :=
  (s.sys.conn.activeEvent.send.toList ++ sends s.sys.conn.typeOf l).flatMap s.outgoing.content

/-- The octets in send events. -/
def underway : List UInt8 := s.held (s.sys.conn.queued ++ s.awaiting)

/-- What is in no event yet. -/
def rest : List Written := (s.buffer ++ s.work.data).map .octet

end OutSystem

/-- **Nothing is lost, doubled or moved,** and what was written before another event goes before it. -/
structure Ordered (s : OutSystem) : Prop where
  /-- what is not on the wire is in send events, in the send buffer, or in a call that has not returned -/
  total : s.written = s.wire ++ s.underway ++ s.buffer ++ s.work.data
  /-- between two transactions all of it is on the wire or in the send buffer -/
  idle : s.sys.conn.state = .idle → s.Returned → s.written = s.wire ++ s.buffer
  /-- before a connect-class event starts, the transport has accepted what was written before its request -/
  connect : ∀ e ∈ started s.sys.conn.log, s.sys.conn.classOf e = .connect → s.writtenBefore e <+: s.wire
  /-- what was written before the request of an event that is queued is on the wire or queued ahead of it -/
  queued : ∀ a e b, s.sys.conn.queued = a ++ e :: b → s.sys.conn.classOf e ≠ .send →
    s.writtenBefore e <+: s.wire ++ s.held a
  /-- the same once it has started -/
  started : ∀ e ∈ started s.sys.conn.log, s.sys.conn.classOf e ≠ .send →
    s.writtenBefore e <+: s.wire ++ s.underway

/-! ### The steps of other threads -/

section Engine

variable {s s' : AsyncSystem} {a : AsyncAction}

/-- **A step of another thread (proved):** nothing is appended, and the send buffer stays. -/
theorem asyncStep_engine (hinv : AsyncInv s) (h : asyncStep s a = some s') (ha : a.isEngine s.conn = true) :
    appended s'.conn.log = appended s.conn.log ∧ s'.conn.sendBuffer = s.conn.sendBuffer := by
  by_cases hprepare : a = .prepare
  · subst hprepare
    simp only [asyncStep] at h
    split at h <;> cases h
    exact ⟨rfl, rfl⟩
  have hrun := asyncStep_run hinv h hprepare
  by_cases hqueueing : a.lockKind = .queueing
  · -- `EventEnqueue` without an event only enters client mode
    obtain ⟨allocs, source, rfl⟩ : ∃ allocs source, a = .enqueue none allocs source := by
      cases a with
      | enqueue connEvent allocs source =>
        cases connEvent with
        | none => exact ⟨allocs, source, rfl⟩
        | some e => cases ha
      | enqueueFailure => cases ha
      | _ => cases hqueueing
    simp only [asyncStep] at h
    split at h <;> cases h
    unfold AsyncSystem.enqueue
    simp only []
    split
    next r hr =>
      rw [AsyncSystem.outcome_conn]
      obtain ⟨hperm, _⟩ := eventEnqueue_state hr
      have hlog := (asyncClientEnter_effect (P := False) hinv.wf hperm).2.2.2.2
      have hbuf := (asyncClientEnter_frame s.conn).2.2.2.2
      have hplain := eventEnqueue_none_run hr
      exact ⟨(hplain.appends (by decide)).appended.trans (by rw [hlog]; rfl),
        (hplain.sendBuffer (by decide) (by decide)).trans hbuf⟩
    · exact ⟨rfl, rfl⟩
  · have hwriting : a.lockKind ≠ .writing := by
      cases a <;> first | exact fun h => LockKind.noConfusion h | cases ha
    cases hrun with
    | lock run => exact ⟨(run.appends hqueueing).appended, run.sendBuffer hqueueing hwriting⟩
    | quiet quiet => exact ⟨quiet.appends.appended, quiet.sendBuffer⟩

/-- **An event that ends without a problem is complete (proved).** -/
theorem asyncStep_left (hinv : AsyncInv s) (h : asyncStep s a = some s') (hclean : problems s'.conn.log = [])
    {e : EventId} (he : e ∈ left s'.conn.log) (hnew : e ∉ left s.conn.log) :
    ∃ w ∈ s.workers, w.event = e ∧ w.stage = .returned .complete := by
  obtain ⟨xs, hxs, hlog | ⟨w, st, _, hw, hst, hfinal, hstatus, hlog⟩⟩ := asyncStep_leaves hinv h
  · rw [hlog, left, List.filterMap_append] at he
    rw [left] at hxs
    rw [hxs] at he
    exact absurd he hnew
  · rw [hlog, left, List.filterMap_append] at he
    rw [left] at hxs
    rw [hxs] at he
    have hwe : e = w.event := (List.mem_cons.mp he).resolve_right hnew
    refine ⟨w, hw, hwe.symm, ?_⟩
    have hgood : LogEntry.problem? (.leave w.event (s.conn.events w.event).status
        (s.conn.events w.event).error (s.conn.events w.event).source) = none := by
      by_contra hbad
      obtain ⟨p, hp⟩ := Option.ne_none_iff_exists'.mp hbad
      have hmem : p ∈ problems s'.conn.log :=
        List.mem_filterMap.mpr ⟨_, by rw [hlog]; exact List.mem_append_right _ List.mem_cons_self, hp⟩
      rw [hclean] at hmem
      cases hmem
    rw [hstatus] at hgood
    rw [hst]
    cases st with
    | complete => rfl
    | queued => exact absurd rfl hfinal.1
    | inProgress => exact absurd rfl hfinal.2
    | failed | timedOut | killed | partialResult => cases hgood

end Engine

end Connio
