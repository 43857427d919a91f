import Connio.EatPeek
import Connio.WriteRuns
import Connio.Process
import Connio.QueueSpec

/-!
# The byte counts of the summary

The sends and receives of one asynchronous transaction with the octets they move, and the two sums that
`ConnEventsProcess` adds up from `ce->transferred` and `PreserveAsyncSummary` hands to the consumer.

* `AsyncTransaction.leave` — what an ended event does to its transaction;
* `connEventsProcessResult_leave` — **PROVED**: this is what `ConnEventsProcess` does to the counts and to the problem;
* `Transfers`, `TransferAction`, `transferStep` — one transaction: a send and a receive at a time, each resumed any
  number of times;
* `ReadState.Counts` — the count that a receive stands for: what it delivered, or what a test read found;
* `summary_counts` — **PROVED**: in every transaction that completes the received count is the sum of these, and the
  sent count is what the transport accepted when no send finds octets in its buffer;
* `sent_right_iff` — **PROVED**: the sent count is right only then.
-/

namespace Connio

open Connio.Lib

/-! ### What an ended event leaves -/

/-- The status of an event that has ended with `ce->error`. -/
def ConnEvent.endStatus (ce : ConnEvent) : ConnEventStatus :=
  if ce.error = 0 then .complete else abortStatus ce

/-- The byte counts of the transaction. -/
def AsyncTransaction.capture (t : AsyncTransaction) (ce : ConnEvent) : AsyncTransaction :=
  match ce.type.eventClass with
  | .receive => { t with received := t.received + ce.transferred }
  | .send => { t with sent := t.sent + ce.transferred }
  | .connect => t

/-- The first problem is kept. -/
def AsyncTransaction.report (t : AsyncTransaction) (p : AsyncProblem) : AsyncTransaction :=
  if t.problem.isSome then t else { t with problem := some p }

/-- What `ConnEventsProcess` does to the transaction for an event that is complete or failed. -/
def AsyncTransaction.leave (t : AsyncTransaction) (ce : ConnEvent) : AsyncTransaction :=
  if ce.endStatus = .complete then t.capture ce
  else (t.capture ce).report ⟨ce.endStatus, ce.error, ce.source⟩

theorem captureStats_transaction (c : Conn) (e : EventId) :
    (captureStats c e).transaction = c.transaction.capture (c.events e) := by
  unfold captureStats AsyncTransaction.capture
  change (match (c.events e).type.eventClass with
    | .receive => _
    | .send => _
    | .connect => c).transaction = _
  cases (c.events e).type.eventClass <;> rfl

section Code

variable {c : Conn} {e : EventId}

/-- `EventQueueAbort` leaves the counts, and keeps the first problem. -/
theorem eventQueueAbort_transaction (hwf : c.Wf) (current : Option EventId) (p : AsyncProblem) :
    (eventQueueAbort c current p).transaction.received = c.transaction.received ∧
      (eventQueueAbort c current p).transaction.sent = c.transaction.sent ∧
      (eventQueueAbort c current p).transaction.problem = (c.transaction.report p).problem := by
  cases hp : c.transaction.problem with
  | none =>
    obtain ⟨q, -, hcancelled⟩ := eventQueueAbort_first hwf hp current p
    obtain ⟨_, _, heq⟩ := hcancelled.rest
    have hreport : c.transaction.report p = { c.transaction with problem := some p } := if_neg (by rw [hp]; nofun)
    rw [heq, hreport]
    exact ⟨rfl, rfl, rfl⟩
  | some q =>
    have hsome : c.transaction.problem ≠ none := by rw [hp]; nofun
    have hreport : c.transaction.report p = c.transaction := if_pos (by rw [hp]; rfl)
    rw [eventQueueAbort_later hsome, hreport]
    exact ⟨rfl, rfl, rfl⟩

/-- `cancelEvent` leaves the transaction. -/
theorem cancelEvent_transaction (c : Conn) (e : EventId) : (cancelEvent c e).transaction = c.transaction := by
  unfold cancelEvent
  simp only
  split <;> rfl

/-- An event that has ended is complete, has failed, or has a partial result. -/
theorem ConnEvent.endStatus_cases (ce : ConnEvent) : ce.endStatus = .complete ∨
    ce.endStatus = .partialResult ∨ ce.endStatus = .timedOut ∨ ce.endStatus = .failed := by
  unfold ConnEvent.endStatus abortStatus
  split
  · exact .inl rfl
  · split
    · exact .inr (.inr (.inl rfl))
    · split
      · exact .inr (.inl rfl)
      · exact .inr (.inr (.inr rfl))

/-- `setAsyncProblem` does to the transaction what `report` does. -/
theorem setAsyncProblem_transaction (c : Conn) (p : AsyncProblem) :
    (setAsyncProblem c p).2.transaction = c.transaction.report p := by
  unfold setAsyncProblem AsyncTransaction.report
  cases hp : c.transaction.problem with
  | none => rfl
  | some q => rfl

/-- **What the error handling does to the counts and to the problem (proved).** -/
theorem handleErrors_transaction (hwf : c.Wf) (hstatus : (c.events e).status = (c.events e).endStatus)
    (hrunning : c.shuttingDown = false) {t : AsyncTransaction}
    (ht : t = if (c.events e).endStatus = .complete then c.transaction
      else c.transaction.report ⟨(c.events e).endStatus, (c.events e).error, (c.events e).source⟩) :
    (handleErrors c e).transaction.received = t.received ∧ (handleErrors c e).transaction.sent = t.sent ∧
      (handleErrors c e).transaction.problem = t.problem := by
  unfold handleErrors
  simp only [hstatus, hrunning]
  by_cases hproblem : c.transaction.problem.isSome = true
  · have hsame : t = c.transaction := by
      rw [ht, AsyncTransaction.report, if_pos hproblem, ite_self]
    rw [if_pos hproblem, cancelEvent_transaction, hsame]
    exact ⟨rfl, rfl, rfl⟩
  · rw [if_neg hproblem]
    by_cases hcomplete : (c.events e).endStatus = .complete
    · rw [if_pos hcomplete] at ht
      rw [hcomplete, ht]
      exact ⟨rfl, rfl, rfl⟩
    · rw [if_neg hcomplete] at ht
      rw [ht]
      split
      · obtain ⟨hreceived, hsent, hkept⟩ := eventQueueAbort_transaction hwf (some e)
          ⟨(c.events e).endStatus, (c.events e).error, (c.events e).source⟩
        rw [hreceived, hsent, hkept, AsyncTransaction.report]
        exact ⟨by split <;> rfl, by split <;> rfl, rfl⟩
      next hnot =>
        -- no other failure is left
        have hpartial : (c.events e).endStatus = .partialResult :=
          ((c.events e).endStatus_cases.resolve_left hcomplete).resolve_right fun h =>
            hnot (h.elim .inl fun h => .inr (.inl h))
        rw [if_pos hpartial, setAsyncProblem_transaction]
        exact ⟨rfl, rfl, rfl⟩

/-- **What `ConnEventsProcess` does to the counts and to the problem (proved)** for an event that has ended, on a handle
that is not shut down. -/
theorem connEventsProcessResult_leave (hwf : c.Wf) (hstatus : (c.events e).status = (c.events e).endStatus)
    (hrunning : c.shuttingDown = false) :
    (connEventsProcessResult c e).transaction.received = (c.transaction.leave (c.events e)).received ∧
      (connEventsProcessResult c e).transaction.sent = (c.transaction.leave (c.events e)).sent ∧
      (connEventsProcessResult c e).transaction.problem = (c.transaction.leave (c.events e)).problem := by
  obtain ⟨c₁, hc₁⟩ : ∃ c₁, c₁ = captureStats ((connEventInProgressClear c e).note
      (.leave e (c.events e).status (c.events e).error (c.events e).source)) e := ⟨_, rfl⟩
  have htransaction : c₁.transaction = c.transaction.capture (c.events e) := by
    rw [hc₁, captureStats_transaction]
    rfl
  have hevents : c₁.events = c.events := by
    rw [hc₁]
    unfold captureStats
    split <;> rfl
  have hshutting : c₁.shuttingDown = false := by
    rw [hc₁, ← hrunning]
    unfold captureStats
    split <;> rfl
  have hwf₁ : c₁.Wf := by
    rw [hc₁]
    unfold captureStats
    split <;> exact hwf
  have hresult : connEventsProcessResult c e = connEventFreeListAdd (handleErrors c₁ e) e := by
    rw [hc₁]
    rfl
  rw [hresult]
  refine handleErrors_transaction hwf₁ (by rw [hevents]; exact hstatus) hshutting ?_
  rw [hevents, htransaction]
  rfl

end Code
/-! ### The transaction -/

/-- A send event, with the octets it finds in its buffer when it starts. -/
structure SendEvent where
  type : ConnEventType
  source : CodeSource
  start : List UInt8
  state : WriteState
  deriving DecidableEq, Repr

structure ReceiveEvent where
  event : ReadEvent
  source : CodeSource
  deriving DecidableEq, Repr

/-- One transaction of a conn; a conn works on one send and on one receive at a time. -/
structure Transfers where
  transaction : AsyncTransaction
  send : Option SendEvent
  receive : Option ReceiveEvent
  receiveBuffer : List UInt8
  /-- what was in the receive buffer, and all octets the socket has handed over since -/
  received : List UInt8
  /-- the sends that have ended, latest first -/
  sends : List SendEvent
  /-- the receives that have ended, as they ended, latest first -/
  reads : List ReadState

inductive TransferAction where
  | startSend (type : ConnEventType) (buffer : List UInt8) (count : ℕ) (source : CodeSource)
  | startReceive (type : ConnEventType) (dataMode : DataMode) (pattern : List UInt8) (length : ℕ) (source : CodeSource)
  /-- the active send is processed, for the first time or again -/
  | send (t : Transport) (input : SendInput t.Failure)
  | receive (input : ReadInput)
  /-- a blocked send ends without its process function: a timeout, a cancel, a failed submission -/
  | stopSend (err : Errno)
  | stopReceive (err : Errno)
  /-- another event or the consumer reports a problem -/
  | problem (p : AsyncProblem)

/-- The event as `ConnEventsProcess` finds it when it has ended. -/
def SendEvent.ended (e : SendEvent) (err : Errno) : ConnEvent where
  type := e.type
  source := e.source
  error := err
  transferred := e.state.transferred

def ReceiveEvent.ended (e : ReceiveEvent) (err : Errno) : ConnEvent where
  type := e.event.type
  source := e.source
  error := err
  transferred := e.event.transferred
  partialOk := e.event.dataMode.partialOk

namespace Transfers

/-- The send has ended. -/
def sendEnded (s : Transfers) (e : SendEvent) (err : Errno) : Transfers :=
  { s with
    transaction := s.transaction.leave (e.ended err)
    send := none
    sends := e :: s.sends }

/-- The send goes on when it would block, else it has ended. -/
def sendReturned (s : Transfers) (e : SendEvent) (r : WriteReturn) : Transfers :=
  if r.1.1 = Errno.ewouldblock then { s with send := some { e with state := r.2 } }
  else s.sendEnded { e with state := r.2 } r.1.1

/-- The receive has ended. -/
def receiveEnded (s : Transfers) (e : ReceiveEvent) (err : Errno) : Transfers :=
  { s with
    transaction := s.transaction.leave (e.ended err)
    receive := none
    reads := ⟨e.event, s.receiveBuffer, s.received⟩ :: s.reads }

/-- The receive goes on when it would block, else it has ended. -/
def receiveReturned (s : Transfers) (e : ReceiveEvent) (r : ReadReturn) : Transfers :=
  let s := { s with receiveBuffer := r.state.buffer, received := r.state.received }
  if r.error = Errno.ewouldblock then
    { s with receive := some { e with event := { r.state.event with inProgress := true } } }
  else s.receiveEnded { e with event := r.state.event } r.error

/-- A new transaction of a conn with these octets in its receive buffer. -/
def new (receiveBuffer : List UInt8) : Transfers where
  transaction := {}
  send := none
  receive := none
  receiveBuffer := receiveBuffer
  received := receiveBuffer
  sends := []
  reads := []

/-- The summary of the transaction. -/
def summary (s : Transfers) : AsyncSummary := preserveAsyncSummary s.transaction

/-- The transaction ends `CONN_EVENT_COMPLETE`. -/
structure Complete (s : Transfers) : Prop where
  send : s.send = none
  receive : s.receive = none
  status : s.summary.status = .complete

end Transfers

/-- One step; `none` when the action is not enabled. -/
def transferStep (iob : IOBufferLib) (s : Transfers) : TransferAction → Option Transfers
  | .startSend type buffer count source =>
    if s.send = none ∧ s.transaction.problem = none ∧ type.eventClass = .send then
      some { s with send := some ⟨type, source, buffer, { buffer := buffer, count := count }⟩ }
    else none
  | .startReceive type dataMode pattern length source =>
    if s.receive = none ∧ s.transaction.problem = none ∧ type.eventClass = .receive then
      some { s with receive := some ⟨connEventAssign type dataMode pattern length, source⟩ }
    else none
  | .send t input =>
    match s.send with
    | some e => (sendEventProcess t.send e.type e.state input).map (s.sendReturned e)
    | none => none
  | .receive input =>
    match s.receive with
    | some e => (socketEventProcess iob ⟨e.event, s.receiveBuffer, s.received⟩ input).map (s.receiveReturned e)
    | none => none
  | .stopSend err =>
    match s.send with
    | some e => if err ≠ 0 then some (s.sendEnded e err) else none
    | none => none
  | .stopReceive err =>
    match s.receive with
    | some e => if err ≠ 0 then some (s.receiveEnded e err) else none
    | none => none
  | .problem p =>
    if p.status ≠ .complete then some { s with transaction := s.transaction.report p } else none

/-! ### What the counts stand for -/

/-- A test read neither copies nor deletes. -/
def ReadEvent.Tests (e : ReadEvent) : Prop :=
  (e.type = .read ∨ e.type = .readCount ∨ e.type = .readUntilPattern) ∧
    e.dataMode.copy = false ∧ e.dataMode.delete = false

/-- The octets a test read finds in the receive buffer: those that satisfy it, or those in one piece of a full
buffer. -/
def ReadState.Found (iob : IOBufferLib) (s : ReadState) (count : ℕ) : Prop :=
  ∃ layout, (∃ patternLen, eventConditionSatisfied iob s layout = (true, count, patternLen)) ∨
    (s.buffer.length = connIobSize ∧ count = iob.getUsed layout s.buffer)

/-- **The count a receive stands for:** the octets it delivered, or those a test read found. -/
def ReadState.Counts (iob : IOBufferLib) (s : ReadState) (count : ℕ) : Prop :=
  (s.event.Tests → s.Found iob count) ∧ (¬s.event.Tests → count = s.event.delivered.length)

/-- The octets the transport has accepted for these sends. -/
def acceptedBytes (sends : List SendEvent) : ℕ := (sends.map fun e => e.state.sent.length).sum

/-- The octets these sends found in their buffers. -/
def startBytes (sends : List SendEvent) : ℕ := (sends.map fun e => e.start.length).sum

theorem startBytes_eq_zero {sends : List SendEvent} : startBytes sends = 0 ↔ ∀ e ∈ sends, e.start = [] := by
  induction sends with
  | nil => exact ⟨fun _ => nofun, fun _ => rfl⟩
  | cons e sends ih =>
    change e.start.length + startBytes sends = 0 ↔ _
    rw [Nat.add_eq_zero_iff, List.length_eq_zero_iff, ih, List.forall_mem_cons]

/-- The sends of this action report what the transport accepted. -/
def TransferAction.Reports : TransferAction → Prop
  | .send t input => ∀ call ∈ input.calls, t.Reports call
  | _ => True

/-! ### One send -/

section Sends

variable {t : Transport} {s s' : WriteState}

/-- `transferred` counts what the callback has supplied. -/
def WriteState.Counted (s : WriteState) : Prop := s.supplied.length = s.transferred

theorem WriteState.Counted.congr (h : s.Counted) (htransferred : s'.transferred = s.transferred)
    (hsupplied : s'.supplied = s.supplied) : s'.Counted := by
  unfold WriteState.Counted
  rw [hsupplied, htransferred]
  exact h

theorem WriteState.Counted.supply (h : s.Counted) (data : List UInt8) : (s.supply data).Counted := by
  change (s.supplied ++ data).length = s.transferred + data.length
  rw [List.length_append, h]

theorem WriteState.Counted.finish (h : s.Counted) {last : Option (FlushAnswers t.Failure)} {next : WriteNext}
    (hfinish : s.finish t.send last = some (next, s')) : s'.Counted := by
  obtain ⟨_, _, _, _, _, htransferred, hsupplied⟩ := finish_spec hfinish
  exact h.congr htransferred hsupplied

/-- The answer of the callback. -/
theorem WriteState.Counted.answered (h : s.Counted) {round : WriteCbRound t.Failure} {request : ℕ}
    {data : List UInt8} {response : ConnIOCBResponse} {errno : Errno} {next : WriteNext}
    (hanswered : s.answered t.send round request data response errno = some (next, s')) : s'.Counted := by
  have hsupply := h.supply data
  simp only [WriteState.answered] at hanswered
  split at hanswered
  · cases hanswered
    exact h
  split at hanswered
  · exact hsupply.finish hanswered
  cases response with
  | goOn =>
    cases hanswered
    exact hsupply
  | needMoreBuffer =>
    simp only at hanswered
    split at hanswered
    · cases hanswered
      exact hsupply
    · obtain ⟨f, _, hmap⟩ := Option.bind_eq_some_iff.mp hanswered
      obtain ⟨r, hflush, heq⟩ := Option.map_eq_some_iff.mp hmap
      obtain ⟨_, _, htransferred, hsupplied⟩ := flush_empty hflush
      cases heq
      exact hsupply.congr htransferred hsupplied
  | done =>
    simp only at hanswered
    split at hanswered
    · have hcount : WriteState.Counted { s.supply data with
          count := unsignedLong (.ofNat 32 (s.supply data).transferred) } := hsupply
      exact hcount.finish hanswered
    · cases hanswered
      exact hsupply
  | error =>
    cases hanswered
    exact hsupply
  | needMoreData =>
    cases hanswered
    exact hsupply

theorem WriteState.Counted.round (h : s.Counted) {round : WriteCbRound t.Failure} {next : WriteNext}
    (hround : s.round t.send round = some (next, s')) : s'.Counted := by
  obtain ⟨_, _, _, room, hroom, hcases⟩ := round_cases hround
  obtain ⟨_, _, htransferred, hsupplied⟩ := makeRoom_spec hroom
  have hkept : room.Counted := h.congr htransferred hsupplied
  rcases hcases with ⟨_, _, _, rfl⟩ | ⟨_, _, _, hfinish⟩ | ⟨_, _, _, _, _, _, _, _, hanswered⟩
  · exact hkept
  · exact hkept.finish hfinish
  · exact hkept.answered hanswered

theorem writeFromCB_counted : ∀ {rounds : List (WriteCbRound t.Failure)} {s : WriteState} {r : WriteReturn},
    s.Counted → writeFromCB t.send s rounds = some r → r.2.Counted
  | [], _, _, _, hrun => by cases hrun
  | round :: rounds, s, r, h, hrun => by
    simp only [writeFromCB] at hrun
    split at hrun
    · cases hrun
    next hround => exact writeFromCB_counted (h.round hround) hrun
    next hround =>
      split at hrun <;> cases hrun
      exact h.round hround

/-- **`transferred` counts what callbacks supply (proved);** a flush and a write from a client buffer count nothing. -/
theorem sendEventProcess_counted {type : ConnEventType} {input : SendInput t.Failure} {r : WriteReturn}
    (h : s.Counted) (hrun : sendEventProcess t.send type s input = some r) : r.2.Counted := by
  cases input with
  | flush f =>
    obtain ⟨_, hflush⟩ := Option.ite_none_right_eq_some.mp hrun
    obtain ⟨_, _, htransferred, hsupplied⟩ := flush_empty hflush
    exact h.congr htransferred hsupplied
  | client calls =>
    obtain ⟨_, hclient⟩ := Option.ite_none_right_eq_some.mp hrun
    obtain ⟨p, _, rfl⟩ := Option.map_eq_some_iff.mp hclient
    exact h
  | callback rounds =>
    obtain ⟨_, hcallback⟩ := Option.ite_none_right_eq_some.mp hrun
    exact writeFromCB_counted h hcallback

/-- **A send so far:** what was in its buffer and what callbacks have supplied is in the buffer or accepted. -/
structure SendEvent.Account (e : SendEvent) : Prop where
  counted : e.state.Counted
  octets : e.state.sent.length + e.state.buffer.length = e.start.length + e.state.transferred

theorem SendEvent.Account.start (type : ConnEventType) (source : CodeSource) (buffer : List UInt8) (count : ℕ) :
    SendEvent.Account ⟨type, source, buffer, { buffer := buffer, count := count }⟩ :=
  ⟨rfl, Nat.zero_add _⟩

/-- **One call of the process function (proved).** -/
theorem SendEvent.Account.process {e : SendEvent} (h : e.Account) {input : SendInput t.Failure} {r : WriteReturn}
    (hreports : ∀ call ∈ input.calls, t.Reports call)
    (hrun : sendEventProcess t.send e.type e.state input = some r) : SendEvent.Account { e with state := r.2 } := by
  have hcounted := sendEventProcess_counted h.counted hrun
  refine ⟨hcounted, ?_⟩
  obtain ⟨data, hsupplied, hsent⟩ := ((sendEventProcess_ok t.send_reports hrun).kept hreports).octets
  have hlengths := congrArg List.length hsent
  have hdata := congrArg List.length hsupplied
  have hbefore := h.counted
  have hoctets := h.octets
  simp only [List.length_append] at hlengths hdata
  unfold WriteState.Counted at hcounted hbefore
  change r.2.sent.length + r.2.buffer.length = e.start.length + r.2.transferred
  omega

end Sends

/-! ### One receive -/

section Reads

variable {iob : IOBufferLib} {e : ReadEvent} {s s' : ReadState}

/-- `transferred` counts what was delivered. -/
def ReadState.Exact (s : ReadState) : Prop := s.event.transferred = s.event.delivered.length

namespace ReadState.Exact

theorem copyBufferedDataToClient (h : s.Exact) (buff : List UInt8) : (s.copyBufferedDataToClient buff).Exact := by
  change s.event.transferred + buff.length = (s.event.delivered ++ buff).length
  rw [List.length_append, h]

theorem ite {p : Prop} [Decidable p] {a b : ReadState} (ha : a.Exact) (hb : b.Exact) :
    (if p then a else b).Exact := by
  split
  · exact ha
  · exact hb

theorem ite_snd {p : Prop} [Decidable p] {a b : Errno × ReadState} (ha : p → a.2.Exact) (hb : ¬p → b.2.Exact) :
    (if p then a else b).2.Exact := by
  split
  next hp => exact ha hp
  next hp => exact hb hp

end ReadState.Exact

/-- A final move that copies or deletes counts what it delivers. -/
theorem moveFinal_exact (h : s.Exact) (hmode : s.event.dataMode.copy = true ∨ s.event.dataMode.delete = true)
    (dataCount patternLen : ℕ) : (s.moveFinalConditionalDataToClient dataCount patternLen).2.Exact := by
  have hcopied := fun buff => h.copyBufferedDataToClient buff
  have hreplaced : ∀ {p : Prop} [Decidable p] (buff pattern : List UInt8),
      (if p then (s.copyBufferedDataToClient buff).copyBufferedDataToClient pattern
        else s.copyBufferedDataToClient buff).Exact :=
    fun buff pattern => ((hcopied buff).copyBufferedDataToClient pattern).ite (hcopied buff)
  simp only [ReadState.moveFinalConditionalDataToClient]
  refine ReadState.Exact.ite_snd (fun _ => ?_) fun hcopy => ?_
  · refine ReadState.Exact.ite_snd (fun _ => ?_) fun _ => ?_
    · exact ReadState.Exact.ite (hcopied _) (hcopied _)
    · refine ReadState.Exact.ite_snd (fun _ => ?_) fun _ => ?_
      · refine ReadState.Exact.ite ?_ ?_
        · exact ReadState.Exact.ite (hreplaced _ _) (hreplaced _ _)
        · exact ReadState.Exact.ite (hreplaced _ _) (hreplaced _ _)
      · exact ReadState.Exact.ite (hreplaced _ _) (hreplaced _ _)
  · refine ReadState.Exact.ite_snd (fun _ => h) fun hdelete => ?_
    rcases hmode with hmode | hmode
    · exact absurd hmode hcopy
    · exact absurd hmode hdelete

/-- A partial move counts what it delivers, and does not end the read. -/
theorem movePartial_exact (h : s.Exact) (moveableCount : ℕ) :
    (s.movePartialConditionalDataToClient moveableCount).2.Exact := by
  simp only [ReadState.movePartialConditionalDataToClient]
  split
  · split
    · exact h.copyBufferedDataToClient _
    · exact h
  · exact h

theorem movePartial_error (s : ReadState) (moveableCount : ℕ) :
    (s.movePartialConditionalDataToClient moveableCount).1 ≠ 0 := by
  simp only [ReadState.movePartialConditionalDataToClient]
  split
  · split
    · split
      · exact (by decide : Errno.emsgsize ≠ 0)
      · exact (by decide : Errno.econnmoredata ≠ 0)
    · exact (by decide : Errno.econnmoredata ≠ 0)
  · exact (by decide : Errno.econnmoredata ≠ 0)

/-- **A receive so far:** it is still the event `e`, and unless that is a test it counts what it has delivered. -/
structure ReadState.Account (e : ReadEvent) (s : ReadState) : Prop where
  type : s.event.type = e.type
  dataMode : s.event.dataMode = e.dataMode
  exact : ¬e.Tests → s.Exact

/-- What is known of a process function that has returned; a test that succeeds has found its count. -/
structure ReadReturn.Account (iob : IOBufferLib) (e : ReadEvent) (r : ReadReturn) : Prop where
  state : r.state.Account e
  found : r.error = 0 → e.Tests → r.state.Found iob r.state.event.transferred

theorem ReadState.Account.tests_iff (h : s.Account e) : s.event.Tests ↔ e.Tests := by
  unfold ReadEvent.Tests
  rw [h.type, h.dataMode]

/-- The count of a receive that has succeeded. -/
theorem ReadReturn.Account.counts {r : ReadReturn} (h : r.Account iob e) (herr : r.error = 0) :
    r.state.Counts iob r.state.event.transferred := by
  refine ⟨fun htests => h.found herr (h.state.tests_iff.mp htests), fun htests => ?_⟩
  exact h.state.exact fun he => htests (h.state.tests_iff.mpr he)

theorem ReadState.Account.fill (h : s.Account e) {answer : Option ReceiveAnswer} {err : Errno}
    {blockedOn : SocketEventType} (hfill : s.fillRecvBuffer answer = some (err, blockedOn, s')) : s'.Account e := by
  have hevent := fillRecvBuffer_event hfill
  refine ⟨?_, ?_, fun htests => ?_⟩
  · rw [hevent, h.type]
  · rw [hevent, h.dataMode]
  · unfold ReadState.Exact
    rw [hevent]
    exact h.exact htests

theorem ReadState.Account.handOver (h : s.Account e) {count : ℕ} (hcount : count ≤ s.buffer.length) :
    (s.handOver count).Account e := by
  refine ⟨h.type, h.dataMode, fun htests => ?_⟩
  change s.event.transferred + count = (s.event.delivered ++ s.buffer.take count).length
  rw [List.length_append, List.length_take, Nat.min_eq_left hcount, h.exact htests]

theorem readAccount_kept (e : ReadEvent) : ReadKept (ReadState.Account e) :=
  ⟨fun h hfill => h.fill hfill, fun _ h hcount => h.handOver hcount⟩

/-- A buffer that cannot be filled is full. -/
theorem fillRecvBuffer_full {answer : Option ReceiveAnswer} {blockedOn : SocketEventType}
    (hfill : s.fillRecvBuffer answer = some (Errno.enobufs, blockedOn, s')) : s'.buffer.length = connIobSize := by
  unfold ReadState.fillRecvBuffer at hfill
  split at hfill
  · obtain ⟨hfull, heq⟩ := Option.ite_none_right_eq_some.mp hfill
    cases heq
    exact hfull
  · obtain ⟨_, heq⟩ := Option.ite_none_right_eq_some.mp hfill
    cases heq
  · obtain ⟨hopen, heq⟩ := Option.ite_none_right_eq_some.mp hfill
    cases heq
    exact absurd (by decide) hopen.2

/-- **One look at the buffer (proved).** -/
theorem satisfyEvent_account (h : s.Account e) {layout : ℕ} {err : Errno}
    (hsat : satisfyEvent iob s layout = (err, s')) :
    s'.Account e ∧ (err = 0 → e.Tests → s'.Found iob s'.event.transferred) := by
  have hsame := satisfyEvent_same hsat
  have htype : s'.event.type = e.type := hsame.type.trans h.type
  have hmode : s'.event.dataMode = e.dataMode := hsame.dataMode.trans h.dataMode
  rw [satisfyEvent_eq] at hsat
  split at hsat
  next count patternLen hcondition =>
    have hbuffered := satisfied_buffered (congrArg Prod.fst hcondition)
    rw [h.type] at hbuffered
    by_cases hmoves : s.event.dataMode.copy = true ∨ s.event.dataMode.delete = true
    · have hno : ¬e.Tests := by
        rintro ⟨_, hcopy, hdelete⟩
        rw [h.dataMode, hcopy, hdelete] at hmoves
        simp at hmoves
      have hexact := moveFinal_exact (h.exact hno) hmoves count patternLen
      rw [hsat] at hexact
      exact ⟨⟨htype, hmode, fun _ => hexact⟩, fun _ htests => absurd htests hno⟩
    · obtain ⟨hcopy, hdelete⟩ := not_or.mp hmoves
      rw [Bool.not_eq_true] at hcopy hdelete
      have htests : e.Tests := ⟨hbuffered, h.dataMode ▸ hcopy, h.dataMode ▸ hdelete⟩
      simp only [ReadState.moveFinalConditionalDataToClient, hcopy, hdelete] at hsat
      cases hsat
      exact ⟨⟨htype, hmode, fun hno => absurd htests hno⟩, fun _ _ => ⟨layout, .inl ⟨patternLen, hcondition⟩⟩⟩
  next count _ _ =>
    have herr := movePartial_error s count
    rw [hsat] at herr
    refine ⟨⟨htype, hmode, fun hno => ?_⟩, fun h0 => absurd h0 herr⟩
    have hexact := movePartial_exact (h.exact hno) count
    rw [hsat] at hexact
    exact hexact

/-- A refill that fails: it ends a test of a full buffer. -/
theorem refillFailed_account (h : s.Account e) (hbuffered : e.type = .read ∨ e.type = .readCount ∨
      e.type = .readUntilPattern) {layout : ℕ} {err : Errno} {blockedOn : SocketEventType} (herr : err ≠ 0)
    (hfull : err = Errno.enobufs → s.buffer.length = connIobSize) :
    (refillFailed iob s layout err blockedOn).Account iob e := by
  unfold refillFailed
  split
  next htest =>
    obtain ⟨hno, hcopy, hdelete⟩ := htest
    rw [h.dataMode] at hcopy hdelete
    exact ⟨⟨h.type, h.dataMode, fun htests => absurd ⟨hbuffered, hcopy, hdelete⟩ htests⟩,
      fun _ _ => ⟨layout, .inr ⟨hfull hno, rfl⟩⟩⟩
  · exact ⟨h, fun h0 => absurd h0 herr⟩

/-- **`conditionalReadProcess` (proved):** by induction on its rounds. -/
theorem conditionalReadProcess_account (hbuffered : e.type = .read ∨ e.type = .readCount ∨
      e.type = .readUntilPattern) : ∀ {rounds : List ReadRound} {s : ReadState} {r : ReadReturn},
    s.Account e → conditionalReadProcess iob s rounds = some r → r.Account iob e
  | [], _, _, _, hrun => by cases hrun
  | round :: rounds, s, r, h, hrun => by
    unfold conditionalReadProcess at hrun
    split at hrun
    next err s' hsat =>
      obtain ⟨hstate, hfound⟩ := satisfyEvent_account h hsat
      split at hrun
      · split at hrun <;> cases hrun
        exact ⟨hstate, hfound⟩
      next answer =>
        split at hrun
        · split at hrun
          · cases hrun
          next hfill => exact conditionalReadProcess_account hbuffered (hstate.fill hfill) hrun
          next err' blockedOn s'' herr hfill =>
            split at hrun <;> cases hrun
            refine refillFailed_account (hstate.fill hfill) hbuffered (fun h0 => ?_) fun hno => ?_
            · exact herr h0
            · subst hno
              exact fillRecvBuffer_full hfill
        · cases hrun

/-- The receives of `socketEventProcess` are the buffered reads and the two others. -/
theorem receive_types {type : ConnEventType} (h : type.eventClass = .receive) :
    (type = .read ∨ type = .readCount ∨ type = .readUntilPattern) ∨ type = .readToCb ∨ type = .readToConn := by
  cases type <;> first | cases h; done | simp

theorem readProcess_account (h : s.Account e) {rounds : ReadRounds} {r : ReadReturn}
    (hrun : readProcess iob s rounds = some r) : r.Account iob e := by
  unfold readProcess at hrun
  split at hrun
  next ht => exact conditionalReadProcess_account (.inl (h.type ▸ ht)) h hrun
  next ht => exact conditionalReadProcess_account (.inr (.inl (h.type ▸ ht))) h hrun
  next ht => exact conditionalReadProcess_account (.inr (.inr (h.type ▸ ht))) h hrun
  next ht =>
    refine ⟨readToCallbackProcess_keeps (readAccount_kept e) h hrun, fun _ htests => ?_⟩
    rw [h.type] at ht
    exact absurd htests.1 (by rw [ht]; decide)
  next ht =>
    refine ⟨readToConnProcess_keeps (readAccount_kept e) h hrun, fun _ htests => ?_⟩
    rw [h.type] at ht
    exact absurd htests.1 (by rw [ht]; decide)
  · cases hrun

/-- **The process function of a receive (proved),** for its first call and every later one. -/
theorem socketEventProcess_account (h : s.Account e) (hclass : e.type.eventClass = .receive) {input : ReadInput}
    {r : ReadReturn} (hrun : socketEventProcess iob s input = some r) : r.Account iob e := by
  unfold socketEventProcess at hrun
  split at hrun
  · exact readProcess_account h hrun
  next resume rounds _ =>
    split at hrun
    next hfill _ => exact readProcess_account (h.fill hfill) hrun
    next err blockedOn s' hfill _ =>
      have hstate := h.fill hfill
      split at hrun
      · cases hrun
      next herr =>
        cases hrun
        unfold resumeFailed
        split
        next htest =>
          obtain ⟨hno, hcopy, hdelete, hcb, hconn⟩ := htest
          subst hno
          have hfull := fillRecvBuffer_full hfill
          rw [hstate.dataMode] at hcopy hdelete
          rw [hstate.type] at hcb hconn
          have htests : e.Tests := by
            rcases receive_types hclass with hbuffered | ht | ht
            · exact ⟨hbuffered, hcopy, hdelete⟩
            · exact absurd ht hcb
            · exact absurd ht hconn
          exact ⟨⟨hstate.type, hstate.dataMode, fun hnot => absurd htests hnot⟩,
            fun _ _ => ⟨resume.layout, .inr ⟨hfull, rfl⟩⟩⟩
        · exact ⟨hstate, fun h0 => absurd h0 herr⟩
    · cases hrun
  · cases hrun

end Reads

/-! ### The transaction -/

section Leave

variable (t : AsyncTransaction) (ce : ConnEvent)

theorem capture_received :
    (t.capture ce).received = t.received + if ce.type.eventClass = .receive then ce.transferred else 0 := by
  unfold AsyncTransaction.capture
  cases ce.type.eventClass <;> rfl

theorem capture_sent :
    (t.capture ce).sent = t.sent + if ce.type.eventClass = .send then ce.transferred else 0 := by
  unfold AsyncTransaction.capture
  cases ce.type.eventClass <;> rfl

theorem capture_problem : (t.capture ce).problem = t.problem := by
  unfold AsyncTransaction.capture
  cases ce.type.eventClass <;> rfl

theorem report_counts (p : AsyncProblem) : (t.report p).received = t.received ∧ (t.report p).sent = t.sent := by
  unfold AsyncTransaction.report
  split <;> exact ⟨rfl, rfl⟩

theorem report_problem (p : AsyncProblem) : (t.report p).problem ≠ none := by
  unfold AsyncTransaction.report
  split
  next hsome =>
    intro hnone
    rw [hnone] at hsome
    cases hsome
  · exact Option.some_ne_none p

theorem leave_received :
    (t.leave ce).received = t.received + if ce.type.eventClass = .receive then ce.transferred else 0 := by
  unfold AsyncTransaction.leave
  split
  · exact capture_received t ce
  · rw [(report_counts _ _).1, capture_received]

theorem leave_sent :
    (t.leave ce).sent = t.sent + if ce.type.eventClass = .send then ce.transferred else 0 := by
  unfold AsyncTransaction.leave
  split
  · exact capture_sent t ce
  · rw [(report_counts _ _).2, capture_sent]

/-- A transaction that has no problem yet has met no failure. -/
theorem leave_problem (h : (t.leave ce).problem = none) : t.problem = none ∧ ce.error = 0 := by
  unfold AsyncTransaction.leave at h
  split at h
  next hstatus =>
    rw [capture_problem] at h
    refine ⟨h, ?_⟩
    by_contra herr
    rw [ConnEvent.endStatus, if_neg herr] at hstatus
    exact abortStatus_ne_complete ce hstatus
  · exact absurd h (report_problem _ _)

variable {t} in
theorem report_status (h : ∀ p, t.problem = some p → p.status ≠ .complete) {p : AsyncProblem}
    (hp : p.status ≠ .complete) : ∀ q, (t.report p).problem = some q → q.status ≠ .complete := by
  intro q hq
  unfold AsyncTransaction.report at hq
  split at hq
  · exact h q hq
  · obtain rfl := Option.some.inj hq
    exact hp

variable {t ce} in
theorem leave_status (h : ∀ p, t.problem = some p → p.status ≠ .complete) :
    ∀ p, (t.leave ce).problem = some p → p.status ≠ .complete := by
  have hcapture : ∀ p, (t.capture ce).problem = some p → p.status ≠ .complete := by
    rw [capture_problem]
    exact h
  unfold AsyncTransaction.leave
  split
  · exact hcapture
  next hstatus => exact report_status hcapture hstatus

end Leave

section Run

variable {iob : IOBufferLib} {s s' : Transfers} {a : TransferAction}

/-- What holds of the receives of a transaction. -/
structure ReceiveInv (iob : IOBufferLib) (s : Transfers) : Prop where
  send : ∀ e, s.send = some e → e.type.eventClass = .send
  active : ∀ e, s.receive = some e → e.event.type.eventClass = .receive ∧
    ReadState.Account e.event ⟨e.event, s.receiveBuffer, s.received⟩
  status : ∀ p, s.transaction.problem = some p → p.status ≠ .complete
  ended : s.transaction.problem = none → ∃ counts : List ℕ,
    List.Forall₂ (ReadState.Counts iob) s.reads counts ∧ s.transaction.received = counts.sum

/-- What holds of its sends. -/
structure SendInv (s : Transfers) : Prop where
  active : ∀ e, s.send = some e → e.Account
  ended : s.transaction.problem = none → acceptedBytes s.sends = s.transaction.sent + startBytes s.sends

/-- What the end of a receive leaves of the counts. -/
theorem receiveEnded_counts {e : ReceiveEvent} {err : Errno} (hclass : e.event.type.eventClass = .receive) :
    (s.receiveEnded e err).transaction.received = s.transaction.received + e.event.transferred ∧
      (s.receiveEnded e err).transaction.sent = s.transaction.sent := by
  have hreceived := leave_received s.transaction (e.ended err)
  have hsent := leave_sent s.transaction (e.ended err)
  have htype : (e.ended err).type.eventClass = .receive := hclass
  rw [htype] at hreceived hsent
  exact ⟨hreceived, hsent⟩

/-- What the end of a send leaves of the counts. -/
theorem sendEnded_counts {e : SendEvent} {err : Errno} (hclass : e.type.eventClass = .send) :
    (s.sendEnded e err).transaction.sent = s.transaction.sent + e.state.transferred ∧
      (s.sendEnded e err).transaction.received = s.transaction.received := by
  have hreceived := leave_received s.transaction (e.ended err)
  have hsent := leave_sent s.transaction (e.ended err)
  have htype : (e.ended err).type.eventClass = .send := hclass
  rw [htype] at hreceived hsent
  exact ⟨hsent, hreceived⟩

/-- A receive ends; when the transaction has no problem then, its count is right. -/
theorem ReceiveInv.receiveEnded (h : ReceiveInv iob s) {e : ReceiveEvent} {err : Errno}
    (hclass : e.event.type.eventClass = .receive)
    (hcounts : err = 0 → ReadState.Counts iob ⟨e.event, s.receiveBuffer, s.received⟩ e.event.transferred) :
    ReceiveInv iob (s.receiveEnded e err) where
  send := h.send
  active e' he := by
    change none = some e' at he
    cases he
  status := leave_status h.status
  ended := by
    intro hproblem
    obtain ⟨hnone, herr⟩ := leave_problem _ _ hproblem
    obtain ⟨counts, hall, hsum⟩ := h.ended hnone
    refine ⟨e.event.transferred :: counts, .cons (hcounts herr) hall, ?_⟩
    rw [(receiveEnded_counts hclass).1, hsum, List.sum_cons, Nat.add_comm]

/-- The end of a send leaves the receives alone. -/
theorem ReceiveInv.sendEnded (h : ReceiveInv iob s) {e : SendEvent} {err : Errno} (hclass : e.type.eventClass = .send) :
    ReceiveInv iob (s.sendEnded e err) where
  send e' he := by
    change none = some e' at he
    cases he
  active := h.active
  status := leave_status h.status
  ended := by
    intro hproblem
    obtain ⟨counts, hall, hsum⟩ := h.ended (leave_problem _ _ hproblem).1
    refine ⟨counts, hall, ?_⟩
    rw [(sendEnded_counts hclass).2, hsum]

/-- A send ends; when the transaction has no problem then, its buffer is empty. -/
theorem SendInv.sendEnded (h : SendInv s) {e : SendEvent} {err : Errno} (hclass : e.type.eventClass = .send)
    (haccount : e.Account) (hempty : err = 0 → e.state.buffer = []) : SendInv (s.sendEnded e err) where
  active e' he := by
    change none = some e' at he
    cases he
  ended := by
    intro hproblem
    obtain ⟨hnone, herr⟩ := leave_problem _ _ hproblem
    have hended := h.ended hnone
    have hoctets := haccount.octets
    rw [hempty herr, List.length_nil, Nat.add_zero] at hoctets
    change e.state.sent.length + acceptedBytes s.sends =
      (s.sendEnded e err).transaction.sent + (e.start.length + startBytes s.sends)
    rw [(sendEnded_counts hclass).1, hended, hoctets]
    omega

/-- The end of a receive leaves the sends alone. -/
theorem SendInv.receiveEnded (h : SendInv s) {e : ReceiveEvent} {err : Errno}
    (hclass : e.event.type.eventClass = .receive) : SendInv (s.receiveEnded e err) where
  active := h.active
  ended := by
    intro hproblem
    rw [(receiveEnded_counts hclass).2]
    exact h.ended (leave_problem _ _ hproblem).1

/-- The receive goes on or has ended. -/
theorem ReceiveInv.returned (h : ReceiveInv iob s) {e : ReceiveEvent} {r : ReadReturn}
    (hclass : e.event.type.eventClass = .receive) (hr : r.Account iob e.event) :
    ReceiveInv iob (s.receiveReturned e r) := by
  have htype : r.state.event.type.eventClass = .receive := by
    rw [hr.state.type]
    exact hclass
  have hexact : ¬r.state.event.Tests → r.state.Exact := fun hno =>
    hr.state.exact fun htests => hno (hr.state.tests_iff.mpr htests)
  unfold Transfers.receiveReturned
  simp only
  split
  · refine ⟨h.send, ?_, h.status, h.ended⟩
    rintro e' ⟨⟩
    exact ⟨htype, rfl, rfl, hexact⟩
  · have hmoved : ReceiveInv iob
        { s with receive := none, receiveBuffer := r.state.buffer, received := r.state.received } :=
      ⟨h.send, fun _ he => (by cases he), h.status, h.ended⟩
    exact hmoved.receiveEnded htype fun herr => hr.counts herr

/-- **One step keeps the account of the receives (proved).** -/
theorem transferStep_receives (h : ReceiveInv iob s) (hstep : transferStep iob s a = some s') :
    ReceiveInv iob s' := by
  cases a with
  | startSend type buffer count source =>
    obtain ⟨⟨_, _, hclass⟩, heq⟩ := Option.ite_none_right_eq_some.mp hstep
    cases heq
    refine ⟨?_, h.active, h.status, h.ended⟩
    rintro e ⟨⟩
    exact hclass
  | startReceive type dataMode pattern length source =>
    obtain ⟨⟨_, _, hclass⟩, heq⟩ := Option.ite_none_right_eq_some.mp hstep
    cases heq
    refine ⟨h.send, ?_, h.status, h.ended⟩
    rintro e ⟨⟩
    exact ⟨hclass, rfl, rfl, fun _ => rfl⟩
  | send t input =>
    simp only [transferStep] at hstep
    split at hstep
    next e he =>
      obtain ⟨r, _, rfl⟩ := Option.map_eq_some_iff.mp hstep
      have hclass := h.send e he
      unfold Transfers.sendReturned
      split
      · refine ⟨?_, h.active, h.status, h.ended⟩
        rintro e' ⟨⟩
        exact hclass
      · exact h.sendEnded hclass
    · cases hstep
  | receive input =>
    simp only [transferStep] at hstep
    split at hstep
    next e he =>
      obtain ⟨r, hrun, rfl⟩ := Option.map_eq_some_iff.mp hstep
      obtain ⟨hclass, haccount⟩ := h.active e he
      exact h.returned hclass (socketEventProcess_account haccount hclass hrun)
    · cases hstep
  | stopSend err =>
    simp only [transferStep] at hstep
    split at hstep
    next e he =>
      obtain ⟨_, heq⟩ := Option.ite_none_right_eq_some.mp hstep
      cases heq
      exact h.sendEnded (h.send e he)
    · cases hstep
  | stopReceive err =>
    simp only [transferStep] at hstep
    split at hstep
    next e he =>
      obtain ⟨herr, heq⟩ := Option.ite_none_right_eq_some.mp hstep
      cases heq
      exact h.receiveEnded (h.active e he).1 fun h0 => absurd h0 herr
    · cases hstep
  | problem p =>
    obtain ⟨hstatus, heq⟩ := Option.ite_none_right_eq_some.mp hstep
    cases heq
    exact ⟨h.send, h.active, report_status h.status hstatus, fun hproblem => absurd hproblem (report_problem _ _)⟩

/-- **One step keeps the account of the sends (proved)** when its calls report what was accepted. -/
theorem transferStep_sends (hclasses : ReceiveInv iob s) (h : SendInv s) (hreports : a.Reports)
    (hstep : transferStep iob s a = some s') : SendInv s' := by
  cases a with
  | startSend type buffer count source =>
    obtain ⟨_, heq⟩ := Option.ite_none_right_eq_some.mp hstep
    cases heq
    refine ⟨?_, h.ended⟩
    rintro e ⟨⟩
    exact SendEvent.Account.start type source buffer count
  | startReceive type dataMode pattern length source =>
    obtain ⟨_, heq⟩ := Option.ite_none_right_eq_some.mp hstep
    cases heq
    exact ⟨h.active, h.ended⟩
  | send t input =>
    simp only [transferStep] at hstep
    split at hstep
    next e he =>
      obtain ⟨r, hrun, rfl⟩ := Option.map_eq_some_iff.mp hstep
      have haccount := (h.active e he).process hreports hrun
      unfold Transfers.sendReturned
      split
      · refine ⟨?_, h.ended⟩
        rintro e' ⟨⟩
        exact haccount
      · exact h.sendEnded (hclasses.send e he) haccount (sendEventProcess_ok t.send_reports hrun).empty
    · cases hstep
  | receive input =>
    simp only [transferStep] at hstep
    split at hstep
    next e he =>
      obtain ⟨r, hrun, rfl⟩ := Option.map_eq_some_iff.mp hstep
      obtain ⟨hclass, haccount⟩ := hclasses.active e he
      have hr := socketEventProcess_account haccount hclass hrun
      unfold Transfers.receiveReturned
      simp only
      split
      · exact ⟨h.active, h.ended⟩
      · have hmoved : SendInv { s with receiveBuffer := r.state.buffer, received := r.state.received } :=
          ⟨h.active, h.ended⟩
        refine hmoved.receiveEnded ?_
        rw [hr.state.type]
        exact hclass
    · cases hstep
  | stopSend err =>
    simp only [transferStep] at hstep
    split at hstep
    next e he =>
      obtain ⟨herr, heq⟩ := Option.ite_none_right_eq_some.mp hstep
      cases heq
      exact h.sendEnded (hclasses.send e he) (h.active e he) fun h0 => absurd h0 herr
    · cases hstep
  | stopReceive err =>
    simp only [transferStep] at hstep
    split at hstep
    next e he =>
      obtain ⟨_, heq⟩ := Option.ite_none_right_eq_some.mp hstep
      cases heq
      exact h.receiveEnded (hclasses.active e he).1
    · cases hstep
  | problem p =>
    obtain ⟨_, heq⟩ := Option.ite_none_right_eq_some.mp hstep
    cases heq
    exact ⟨h.active, fun hproblem => absurd hproblem (report_problem _ _)⟩

/-- A new transaction has moved nothing. -/
theorem new_inv (buffer : List UInt8) : ReceiveInv iob (.new buffer) ∧ SendInv (.new buffer) := by
  have hsend : (Transfers.new buffer).send = none := rfl
  have hreceive : (Transfers.new buffer).receive = none := rfl
  have hproblem : (Transfers.new buffer).transaction.problem = none := rfl
  refine ⟨⟨fun e he => ?_, fun e he => ?_, fun p hp => ?_, fun _ => ⟨[], .nil, rfl⟩⟩, ⟨fun e he => ?_, fun _ => rfl⟩⟩
  · rw [hsend] at he
    cases he
  · rw [hreceive] at he
    cases he
  · rw [hproblem] at hp
    cases hp
  · rw [hsend] at he
    cases he

/-- **Every run keeps the account of the receives (proved).** -/
theorem reachable_receives {buffer : List UInt8} (hs : Reachable (enabled (transferStep iob)) (.new buffer) s) :
    ReceiveInv iob s :=
  hs.invariant (new_inv buffer).1 fun _ _ _ h _ hstep => transferStep_receives h hstep

/-- **Every run whose calls report what was accepted keeps the account of the sends (proved).** -/
theorem reachable_sends {buffer : List UInt8}
    (hs : ReachableVia (enabled (transferStep iob)) (fun _ a => a.Reports) (.new buffer) s) : SendInv s := by
  refine (hs.invariant (P := fun s => ReceiveInv iob s ∧ SendInv s) (new_inv buffer) ?_).2
  intro s a s' h hreports hstep
  exact ⟨transferStep_receives h.1 hstep, transferStep_sends h.1 h.2 hreports hstep⟩

/-- A transaction that completes has met no problem. -/
theorem ReceiveInv.complete (h : ReceiveInv iob s) (hs : s.Complete) : s.transaction.problem = none := by
  have hstatus := hs.status
  unfold Transfers.summary preserveAsyncSummary at hstatus
  cases hproblem : s.transaction.problem with
  | none => rfl
  | some p =>
    rw [hproblem] at hstatus
    exact absurd hstatus (h.status p hproblem)

/-- **What the counts of the summary are (proved).**  For every transaction that completes: the received count is the
sum of what its receives stand for; and when every send starts with an empty buffer and every `SocketSend` reports
what was accepted, the sent count is what the transport has accepted. -/
theorem summary_counts (iob : IOBufferLib) (buffer : List UInt8) (actions : List TransferAction) (s : Transfers)
    (hrun : runFrom (transferStep iob) (.new buffer) actions = some s) (hs : s.Complete) :
    (∃ counts : List ℕ, List.Forall₂ (ReadState.Counts iob) s.reads counts ∧ s.summary.received = counts.sum) ∧
      ((∀ a ∈ actions, a.Reports) → (∀ e ∈ s.sends, e.start = []) → s.summary.sent = acceptedBytes s.sends) := by
  have hreceives := reachable_receives (reachable_of_runFrom hrun)
  have hproblem := hreceives.complete hs
  refine ⟨hreceives.ended hproblem, fun hreports hstart => ?_⟩
  have hsends := reachable_sends (reachableVia_of_forall (fun _ a => a.Reports) (fun a ha _ => hreports a ha) hrun)
  have hended := hsends.ended hproblem
  rw [startBytes_eq_zero.mpr hstart, Nat.add_zero] at hended
  exact hended.symm

/-- **The sent count is right only then (proved):** what a send finds in its buffer is sent and not counted. -/
theorem sent_right_iff {buffer : List UInt8}
    (hrun : ReachableVia (enabled (transferStep iob)) (fun _ a => a.Reports) (.new buffer) s) (hs : s.Complete) :
    s.summary.sent = acceptedBytes s.sends ↔ ∀ e ∈ s.sends, e.start = [] := by
  have hproblem := (reachable_receives hrun.reachable).complete hs
  have hended := (reachable_sends hrun).ended hproblem
  have hsummary : s.summary.sent = s.transaction.sent := rfl
  rw [← startBytes_eq_zero, hsummary, hended]
  omega

end Run

/-! ### A transaction that completes -/

/-- The callback supplies `data` and is done; the transport accepts all of it. -/
def callbackInput (data : List UInt8) : SendInput Errno :=
  .callback [⟨8, none, some (data, .done, 0), false, some ⟨SendBuffer.onePiece, [[.accepts data.length]]⟩⟩]

/-- A callback write of two octets, and a read of one octet that takes it from the receive buffer. -/
def countedTransfers : List TransferAction :=
  [.startSend .writeFromCb [] 0 ⟨0, 1⟩, .startReceive .readCount { copy := true, delete := true } [] 1 ⟨0, 2⟩,
    .send .clear (callbackInput [8, 9]), .receive ⟨none, some (.conditional [⟨0, none⟩])⟩]

/-- What the consumer sees of a transaction, and what really moved. -/
structure TransfersView where
  idle : Bool
  summary : AsyncSummary
  accepted : ℕ
  delivered : ℕ
  started : ℕ
  deriving DecidableEq

def Transfers.view (s : Transfers) : TransfersView where
  idle := s.send.isNone && s.receive.isNone
  summary := s.summary
  accepted := acceptedBytes s.sends
  delivered := (s.reads.map fun r => r.event.delivered.length).sum
  started := startBytes s.sends

theorem Transfers.Complete.of_view {s : Transfers} {v : TransfersView} (h : s.view = v) (hidle : v.idle = true)
    (hstatus : v.summary.status = .complete) : s.Complete := by
  subst h
  obtain ⟨hsend, hreceive⟩ := Bool.and_eq_true_iff.mp hidle
  exact ⟨Option.isNone_iff_eq_none.mp hsend, Option.isNone_iff_eq_none.mp hreceive, hstatus⟩

theorem summary_counts_two : ∃ s, runFrom (transferStep .onePiece) (.new [7]) countedTransfers = some s ∧
    s.summary.sent = acceptedBytes s.sends ∧ acceptedBytes s.sends = 2 ∧
      ∃ counts, List.Forall₂ (ReadState.Counts .onePiece) s.reads counts ∧ counts.sum = 1 := by
  have hview : (runFrom (transferStep .onePiece) (.new [7]) countedTransfers).map Transfers.view =
      some ⟨true, ⟨.complete, 2, 1, 0, none⟩, 2, 1, 0⟩ := by rfl
  obtain ⟨s, hrun, hs⟩ := Option.map_eq_some_iff.mp hview
  obtain ⟨⟨counts, hall, hsum⟩, hsent⟩ := summary_counts .onePiece [7] countedTransfers s hrun (.of_view hs rfl rfl)
  have hreports : ∀ a ∈ countedTransfers, a.Reports := by
    intro a ha
    simp only [countedTransfers, List.mem_cons, List.not_mem_nil, or_false] at ha
    rcases ha with rfl | rfl | rfl | rfl
    · trivial
    · trivial
    · exact fun _ _ => trivial
    · trivial
  have hstart : startBytes s.sends = 0 := congrArg TransfersView.started hs
  have hreceived : s.summary.received = 1 := congrArg (fun v => v.summary.received) hs
  exact ⟨s, hrun, hsent hreports (startBytes_eq_zero.mp hstart), congrArg TransfersView.accepted hs, counts, hall,
    hsum ▸ hreceived⟩

/-- `ConnATestReadCount` for two octets, which are in the receive buffer. -/
def testTransfers : List TransferAction :=
  [.startReceive .readCount {} [] 2 ⟨0, 1⟩, .receive ⟨none, some (.conditional [⟨0, none⟩])⟩]

/-- A flush of one octet. -/
def flushTransfers : List TransferAction :=
  [.startSend .flush [5] 0 ⟨0, 1⟩, .send .clear (.flush ⟨SendBuffer.onePiece, [[.accepts 1]]⟩)]

/-- **Neither count is what has moved (proved):** a test read is counted and delivers nothing, and a flush is not
counted. -/
theorem summary_miscounts :
    (¬ ∀ (iob : IOBufferLib) (buffer : List UInt8) (actions : List TransferAction) (s : Transfers),
      runFrom (transferStep iob) (.new buffer) actions = some s → s.Complete →
        s.summary.received = (s.reads.map fun r => r.event.delivered.length).sum) ∧
    ¬ ∀ (iob : IOBufferLib) (buffer : List UInt8) (actions : List TransferAction) (s : Transfers),
      runFrom (transferStep iob) (.new buffer) actions = some s → s.Complete →
        s.summary.sent = acceptedBytes s.sends := by
  constructor
  · intro h
    have hview : (runFrom (transferStep .onePiece) (.new [1, 2, 3]) testTransfers).map Transfers.view =
        some ⟨true, ⟨.complete, 0, 2, 0, none⟩, 0, 0, 0⟩ := by rfl
    obtain ⟨s, hrun, hs⟩ := Option.map_eq_some_iff.mp hview
    have hreceived : s.summary.received = 2 := congrArg (fun v => v.summary.received) hs
    have hdelivered : (s.reads.map fun r => r.event.delivered.length).sum = 0 := congrArg TransfersView.delivered hs
    have heq := h _ _ _ s hrun (.of_view hs rfl rfl)
    rw [hreceived, hdelivered] at heq
    cases heq
  · intro h
    have hview : (runFrom (transferStep .onePiece) (.new []) flushTransfers).map Transfers.view =
        some ⟨true, ⟨.complete, 0, 0, 0, none⟩, 1, 0, 1⟩ := by rfl
    obtain ⟨s, hrun, hs⟩ := Option.map_eq_some_iff.mp hview
    have hsent : s.summary.sent = 0 := congrArg (fun v => v.summary.sent) hs
    have haccepted : acceptedBytes s.sends = 1 := congrArg TransfersView.accepted hs
    have heq := h _ _ _ s hrun (.of_view hs rfl rfl)
    rw [hsent, haccepted] at heq
    cases heq

end Connio
