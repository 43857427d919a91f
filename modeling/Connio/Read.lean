import Mathlib.Algebra.Order.Ring.Nat
import Connio.Event
import Connio.Lib.FirstMatch
import Connio.Lib.Transition

/-!
# Reading through the receive buffer

The process functions of the read events (`process.c`), with the octets they move: from the socket into the
receive buffer, and from there to the client's buffer, to the client's callback or to another conn.

* `IOBufferLib` — what the code relies on of the ring buffer: a bounded first-in first-out of octets;
* `DataMode`, `ReadEvent`, `ReadState` — the flags of a read, the event, and the conn it reads from;
* `fillRecvBuffer`, `satisfyEvent`, `conditionalReadProcess` — a read that ends with a condition;
* `readToCallbackProcess`, `readToConnProcess` — the unbuffered reads;
* `socketEventProcess` — the read cases, with the refill of a read that blocked before;
* `ReadAction`, `readStep` — any sequence of reads on one conn;
* `reachable_conserved` — **PROVED**: in any sequence of consuming reads no octet is lost, duplicated or
  reordered, and `transferred` counts what was delivered.

The loops take the answers they get as a list, one entry a round; a list that is not the one of an execution
gives `none`.  The replacement of NUL octets during a search is left out.
-/

namespace Connio

open Connio.Lib

/-- The octets an IOBuffer of a conn holds (`CONN_IOB_SIZE`). -/
def connIobSize : ℕ := 1024 * 64 - 1024

/-! ### The ring buffer -/

/-- What `IOBSearch` reports: the octets before the match and the length of the match, or the octets that
may be moved out. -/
inductive SearchResult where
  | found (count patternLen : ℕ)
  | notFound (count : ℕ)
  deriving DecidableEq, Repr

/-- **The ring buffer.**  How its octets lie in memory is not seen here; `layout` stands for it. -/
structure IOBufferLib where
  /-- `IOBGetUsed`: the octets that lie in one piece -/
  getUsed : (layout : ℕ) → List UInt8 → ℕ
  /-- `IOBDefrag`: TRUE when pieces were joined -/
  defrag : (layout : ℕ) → List UInt8 → Bool
  /-- `IOBSearch`; `none` is the NULL pattern of `SEARCH_ANY_CR` -/
  search : (layout : ℕ) → Option (List UInt8) → List UInt8 → SearchResult
  /-- the octets that `IOBSearch` leaves in the buffer -/
  searched : (layout : ℕ) → Option (List UInt8) → List UInt8 → List UInt8
  getUsed_le : ∀ layout b, getUsed layout b ≤ b.length
  getUsed_pos : ∀ layout b, b ≠ [] → 0 < getUsed layout b
  search_found : ∀ layout pattern b count patternLen,
    search layout pattern b = .found count patternLen → count + patternLen ≤ b.length
  search_notFound : ∀ layout pattern b count,
    search layout pattern b = .notFound count → count ≤ b.length
  /-- **The search leaves the octets alone:** there is none that `SEARCH_REPLACE_NULL` replaces. -/
  searched_eq : ∀ layout pattern b, searched layout pattern b = b

/-! ### The event and its conn -/

/-- `dataMode`: the `CONN_READ_` flags. -/
structure DataMode where
  copy : Bool := false
  delete : Bool := false
  terminate : Bool := false
  includePattern : Bool := false
  replacePattern : Bool := false
  partialOk : Bool := false
  deriving DecidableEq, Repr

/-- `SPECIAL_PATTERN_CRLF` -/
def specialPatternCRLF : List UInt8 := [83, 80, 95, 67, 82, 76, 70]

/-- An `int` converted to `unsigned long` -/
def unsignedLong (n : BitVec 32) : ℕ := (n.signExtend 64).toNat

/-- **An `int` as an `unsigned long` (proved):** a negative one wraps. -/
theorem unsignedLong_eq (n : BitVec 32) :
    (unsignedLong n : Int) = if 0 ≤ n.toInt then n.toInt else 2 ^ 64 + n.toInt := by
  have hsigned : (n.signExtend 64).toInt = n.toInt := BitVec.toInt_signExtend_of_le (by decide)
  have hcases := BitVec.toInt_eq_toNat_cond (n.signExtend 64)
  have hlt := (n.signExtend 64).isLt
  rw [hsigned] at hcases
  unfold unsignedLong
  split at hcases <;> split <;> omega

theorem unsignedLong_pos {n : BitVec 32} (h : 0 < n.toInt) : unsignedLong n < 2 ^ 31 := by
  have heq := unsignedLong_eq n
  have hlt := BitVec.toInt_lt (x := n)
  rw [if_pos (Int.le_of_lt h)] at heq
  omega

structure ReadEvent where
  type : ConnEventType
  dataMode : DataMode := {}
  /-- `args.buffer.pattern` -/
  pattern : List UInt8 := []
  /-- `clientBuffer.remaining` -/
  remaining : ℕ := 0
  /-- `args.cb.count` or `args.conn.count` -/
  count : ℕ := 0
  transferred : ℕ := 0
  /-- `status` is `CONN_EVENT_IN_PROGRESS` -/
  inProgress : Bool := false
  /-- the octets in the client's buffer, taken by the callback, or passed to the other conn -/
  delivered : List UInt8 := []
  /-- `TerminateClientBuffer` was called -/
  terminated : Bool := false
  /-- the pattern octets that were removed and not delivered -/
  removed : List UInt8 := []
  deriving DecidableEq, Repr

/-- A read event, the receive buffer of its conn, and all octets the socket has handed over. -/
structure ReadState where
  event : ReadEvent
  buffer : List UInt8
  received : List UInt8
  deriving DecidableEq, Repr

/-- What a process function returns.  `asserted` is the error the assertion in `conditionalReadProcess` has
seen, if it was reached. -/
structure ReadReturn where
  error : Errno
  blockedOn : SocketEventType
  state : ReadState
  asserted : Option Errno := none
  deriving DecidableEq, Repr

/-- What one `SocketReceive` answers; a stream socket reports neither `ENOBUFS` nor `EMSGSIZE`. -/
inductive ReceiveAnswer where
  | data (octets : List UInt8)
  | fails (error : Errno) (blockedOn : SocketEventType)
  deriving DecidableEq, Repr

namespace ReadState

/-- `IOBMarkFree` -/
def markFree (s : ReadState) (count : ℕ) : ReadState := { s with buffer := s.buffer.drop count }

/-- `fillRecvBuffer`; `none` is the answer of a socket that is not asked. -/
def fillRecvBuffer (s : ReadState) :
    Option ReceiveAnswer → Option (Errno × SocketEventType × ReadState)
  | none => if s.buffer.length = connIobSize then some (Errno.enobufs, .none, s) else none
  | some (.data octets) =>
    if octets ≠ [] ∧ s.buffer.length + octets.length ≤ connIobSize then
      some (0, .none, { s with buffer := s.buffer ++ octets, received := s.received ++ octets })
    else none
  | some (.fails error blockedOn) =>
    if s.buffer.length < connIobSize ∧ error ∉ [0, Errno.enobufs, Errno.emsgsize] then
      some (error, blockedOn, s)
    else none

/-- `CopyBufferedDataToClient` -/
def copyBufferedDataToClient (s : ReadState) (buff : List UInt8) : ReadState :=
  { s with event := { s.event with
      remaining := s.event.remaining - buff.length
      transferred := s.event.transferred + buff.length
      delivered := s.event.delivered ++ buff } }

/-- `TerminateClientBuffer` -/
def terminateClientBuffer (s : ReadState) : ReadState :=
  { s with event := { s.event with terminated := true } }

/-- The pattern octets after the first `dataCount` are about to be removed. -/
def removePattern (s : ReadState) (dataCount patternLen : ℕ) : ReadState :=
  { s with event := { s.event with
      removed := s.event.removed ++ (s.buffer.drop dataCount).take patternLen } }

/-- `moveFinalConditionalDataToClient` -/
def moveFinalConditionalDataToClient (s : ReadState) (dataCount patternLen : ℕ) : Errno × ReadState :=
  let m := s.event.dataMode
  if m.copy then
    let terminatorLen := if m.terminate then 1 else 0
    let replacementPatternLen := if m.replacePattern then s.event.pattern.length else 0
    let extraLen := if m.replacePattern then 0 else if m.includePattern then patternLen else 0
    if s.event.remaining < dataCount + extraLen + replacementPatternLen + terminatorLen then
      -- the client's buffer has no room: no pattern and no terminator
      let dataCount := min dataCount s.event.remaining
      let s := s.copyBufferedDataToClient (s.buffer.take dataCount)
      (Errno.emsgsize, if m.delete then s.markFree dataCount else s)
    else
      let s := s.copyBufferedDataToClient (s.buffer.take (dataCount + extraLen))
      let s := if m.replacePattern then s.copyBufferedDataToClient s.event.pattern else s
      let s := if m.terminate then s.terminateClientBuffer else s
      if m.delete then
        let s := if m.includePattern ∧ m.replacePattern = false then s
          else s.removePattern dataCount patternLen
        (0, s.markFree (dataCount + patternLen))
      else (0, s)
  else if m.delete then (0, s.markFree (dataCount + patternLen))
  else (0, { s with event := { s.event with transferred := dataCount } })

/-- `movePartialConditionalDataToClient` -/
def movePartialConditionalDataToClient (s : ReadState) (moveableCount : ℕ) : Errno × ReadState :=
  let m := s.event.dataMode
  if m.delete ∧ moveableCount ≠ 0 then
    if m.copy then
      let err := if s.event.remaining < moveableCount then Errno.emsgsize else Errno.econnmoredata
      let moveableCount := min moveableCount s.event.remaining
      (err, (s.copyBufferedDataToClient (s.buffer.take moveableCount)).markFree moveableCount)
    else (Errno.econnmoredata, s.markFree moveableCount)
  else (Errno.econnmoredata, s)

end ReadState

/-! ### A read that ends with a condition -/

section Process

variable (iob : IOBufferLib)

/-- `EventConditionSatisfied`: TRUE, the octets that can be moved and the length of the pattern. -/
def eventConditionSatisfied (s : ReadState) (layout : ℕ) : Bool × ℕ × ℕ :=
  let e := s.event
  match e.type with
  | .read =>
    let count := iob.getUsed layout s.buffer
    if 0 < count then (true, min count e.remaining, 0) else (false, 0, 0)
  | .readCount =>
    let count := iob.getUsed layout s.buffer
    if e.remaining ≤ count then (true, e.remaining, 0) else (false, count, 0)
  | .readUntilPattern =>
    match iob.search layout (if e.pattern = specialPatternCRLF then none else some e.pattern) s.buffer with
    | .found count patternLen => (true, count, patternLen)
    | .notFound count => (false, count, 0)
  | _ => (false, 0, 0)

/-- The receive buffer behind `EventConditionSatisfied`, which searches it for a pattern. -/
def ReadState.searched (s : ReadState) (layout : ℕ) : ReadState :=
  let pattern := if s.event.pattern = specialPatternCRLF then none else some s.event.pattern
  if s.event.type = .readUntilPattern then { s with buffer := iob.searched layout pattern s.buffer } else s

/-- `SatisfyEvent` -/
def satisfyEvent (s : ReadState) (layout : ℕ) : Errno × ReadState :=
  match eventConditionSatisfied iob s layout with
  | (true, count, patternLen) => (s.searched iob layout).moveFinalConditionalDataToClient count patternLen
  | (false, count, _) => (s.searched iob layout).movePartialConditionalDataToClient count

@[simp] theorem ReadState.searched_eq (s : ReadState) (layout : ℕ) : s.searched iob layout = s := by
  rw [ReadState.searched, iob.searched_eq]
  exact ite_self s

/-- **`SatisfyEvent` (proved),** where the search leaves the octets alone. -/
theorem satisfyEvent_eq (s : ReadState) (layout : ℕ) : satisfyEvent iob s layout =
    match eventConditionSatisfied iob s layout with
    | (true, count, patternLen) => s.moveFinalConditionalDataToClient count patternLen
    | (false, count, _) => s.movePartialConditionalDataToClient count := by
  rw [satisfyEvent, ReadState.searched_eq]

/-- One round of `conditionalReadProcess`: how the buffer lies, and the refill if the condition asks for
one. -/
structure ReadRound where
  layout : ℕ
  fill : Option (Option ReceiveAnswer)
  deriving DecidableEq, Repr

/-- `conditionalReadProcess` leaves its loop with this error. -/
def refillFailed (s : ReadState) (layout : ℕ) (error : Errno) (blockedOn : SocketEventType) :
    ReadReturn :=
  if error = Errno.enobufs ∧ s.event.dataMode.copy = false ∧ s.event.dataMode.delete = false then
    { error := 0
      blockedOn := blockedOn
      state := { s with event := { s.event with transferred := iob.getUsed layout s.buffer } }
      asserted := some 0 }
  else { error := error, blockedOn := blockedOn, state := s, asserted := some error }

/-- `conditionalReadProcess` -/
def conditionalReadProcess (s : ReadState) : List ReadRound → Option ReadReturn
  | [] => none
  | round :: rounds =>
    match satisfyEvent iob s round.layout with
    | (err, s') =>
      match round.fill with
      | none =>
        if err ≠ Errno.econnmoredata ∧ rounds = [] then
          some { error := err, blockedOn := .none, state := s' }
        else none
      | some answer =>
        if err = Errno.econnmoredata then
          match s'.fillRecvBuffer answer with
          | none => none
          | some (0, _, s'') => conditionalReadProcess s'' rounds
          | some (err, blockedOn, s'') =>
            if rounds = [] then some (refillFailed iob s'' round.layout err blockedOn) else none
        else none

/-! ### A read that calls back -/

/-- What a `ConnIOCB` answers. -/
inductive ConnIOCBResponse where
  | goOn
  | done
  | needMoreData
  | needMoreBuffer
  | error
  deriving DecidableEq, Repr

/-- One round of `readToCallbackProcess`: the callback takes `taken` octets and answers. -/
structure CallbackRound where
  layout : ℕ
  callback : Option (ℕ × ConnIOCBResponse)
  fill : Option (Option ReceiveAnswer)
  deriving DecidableEq, Repr

/-- The octets go to the callback or to the other conn, and leave the buffer. -/
def ReadState.handOver (s : ReadState) (count : ℕ) : ReadState :=
  { s with
    event := { s.event with
      transferred := s.event.transferred + count
      delivered := s.event.delivered ++ s.buffer.take count }
    buffer := s.buffer.drop count }

/-- What a round does after the callback, or without it. -/
inductive RoundEnd where
  /-- the next round -/
  | again
  /-- the buffer is filled -/
  | fill
  | ret (error : Errno)
  deriving DecidableEq, Repr

/-- The octets the callback is offered; `none` when the count has been reached. -/
def callbackOffer (s : ReadState) (used : ℕ) : Option ℕ :=
  if s.event.count ≠ 0 then
    if s.event.count ≤ s.event.transferred then none
    else some (min used (s.event.count - s.event.transferred))
  else some used

/-- What `readToCallbackProcess` does with the answer of the callback, which was offered `used` octets. -/
def callbackAnswered (s : ReadState) (layout used taken : ℕ) (response : ConnIOCBResponse) :
    RoundEnd × ReadState :=
  if used < taken then (.ret Errno.econniocblong, s)
  else
    let s := s.handOver taken
    if 0 < taken ∧ s.event.count ≠ 0 ∧ s.event.count ≤ s.event.transferred then (.ret 0, s)
    else
      match response with
      | .goOn => (.again, s)
      | .done => (.ret (if s.event.count = 0 then 0 else Errno.econniocbshort), s)
      | .needMoreData =>
        if taken = used then (.again, s)
        else if iob.defrag layout s.buffer then (.again, s)
        else if s.buffer.length = connIobSize then (.ret Errno.enobufs, s)
        else (.fill, s)
      | .needMoreBuffer => (.ret Errno.econniomode, s)
      | .error => (.ret Errno.eio, s)

/-- A round up to the refill. -/
def callbackRound (s : ReadState) (layout : ℕ) :
    Option (ℕ × ConnIOCBResponse) → Option (RoundEnd × ReadState)
  | none =>
    if iob.getUsed layout s.buffer = 0 then some (.fill, s)
    else if callbackOffer s (iob.getUsed layout s.buffer) = none then some (.ret 0, s)
    else none
  | some (taken, response) =>
    if iob.getUsed layout s.buffer = 0 then none
    else
      (callbackOffer s (iob.getUsed layout s.buffer)).map fun used =>
        callbackAnswered iob s layout used taken response

/-- `readToCallbackProcess` -/
def readToCallbackProcess (s : ReadState) : List CallbackRound → Option ReadReturn
  | [] => none
  | round :: rounds =>
    match callbackRound iob s round.layout round.callback, round.fill with
    | some (.again, s'), none => readToCallbackProcess s' rounds
    | some (.ret err, s'), none =>
      if rounds = [] then some { error := err, blockedOn := .none, state := s' } else none
    | some (.fill, s'), some answer =>
      match s'.fillRecvBuffer answer with
      | none => none
      | some (0, _, s'') => readToCallbackProcess s'' rounds
      | some (err, blockedOn, s'') =>
        if rounds = [] then some { error := err, blockedOn := blockedOn, state := s'' } else none
    | _, _ => none

/-! ### A read to another conn -/

/-- One refill of `readToConnProcess`, and how the buffer lies after it. -/
structure ConnFill where
  answer : Option ReceiveAnswer
  layout : ℕ
  deriving DecidableEq, Repr

/-- One round of `readToConnProcess`: the refills, and what `connWriteEx` accepts and leaves in `errno`. -/
structure ConnRound where
  layout : ℕ
  fills : List ConnFill
  write : Option (ℕ × Errno)
  deriving DecidableEq, Repr

/-- The inner loop: fill the buffer until it holds `stillNeeded` octets in one piece, is full, or cannot be
filled.  The first component is the error of a refill that failed, or the octets in one piece. -/
def connFill (stillNeeded : ℕ) (s : ReadState) (bufferCount : ℕ) :
    List ConnFill → Option ((Errno × SocketEventType ⊕ ℕ) × ReadState)
  | [] => if stillNeeded ≤ bufferCount then some (.inr bufferCount, s) else none
  | fill :: fills =>
    if stillNeeded ≤ bufferCount then none
    else
      match s.fillRecvBuffer fill.answer with
      | none => none
      | some (0, _, s') => connFill stillNeeded s' (iob.getUsed fill.layout s'.buffer) fills
      | some (err, blockedOn, s') =>
        if fills ≠ [] then none
        else if err = Errno.enobufs then some (.inr bufferCount, s')
        else some (.inl (err, blockedOn), s')

/-- `readToConnProcess` -/
def readToConnProcess (s : ReadState) : List ConnRound → Option ReadReturn
  | [] =>
    if s.event.count ≤ s.event.transferred then some { error := 0, blockedOn := .none, state := s }
    else none
  | round :: rounds =>
    if s.event.count ≤ s.event.transferred then none
    else
      let stillNeeded := s.event.count - s.event.transferred
      match connFill iob stillNeeded s (iob.getUsed round.layout s.buffer) round.fills, round.write with
      | some (.inl (err, blockedOn), s'), none =>
        if rounds = [] then some { error := err, blockedOn := blockedOn, state := s' } else none
      | some (.inr bufferCount, s'), some (sent, errno) =>
        if min bufferCount stillNeeded < sent then none
        else
          let s'' := s'.handOver sent
          if errno = 0 then readToConnProcess s'' rounds
          else if rounds = [] then some { error := errno, blockedOn := .none, state := s'' } else none
      | _, _ => none

/-! ### The read cases of `socketEventProcess` -/

/-- The rounds of the process function the event's type selects. -/
inductive ReadRounds where
  | conditional (rounds : List ReadRound)
  | callback (rounds : List CallbackRound)
  | conn (rounds : List ConnRound)
  deriving DecidableEq, Repr

/-- The process function the event's type selects. -/
def readProcess (s : ReadState) (rounds : ReadRounds) : Option ReadReturn :=
  match s.event.type, rounds with
  | .read, .conditional rounds | .readCount, .conditional rounds | .readUntilPattern, .conditional rounds =>
    conditionalReadProcess iob s rounds
  | .readToCb, .callback rounds => readToCallbackProcess iob s rounds
  | .readToConn, .conn rounds => readToConnProcess iob s rounds
  | _, _ => none

/-- What a blocked read that is resumed meets first. -/
structure ReadResume where
  layout : ℕ
  answer : Option ReceiveAnswer
  deriving DecidableEq, Repr

/-- A resumed read that cannot be refilled returns; only a test of the buffer is then satisfied. -/
def resumeFailed (s : ReadState) (layout : ℕ) (error : Errno) (blockedOn : SocketEventType) :
    ReadReturn :=
  if error = Errno.enobufs ∧ s.event.dataMode.copy = false ∧ s.event.dataMode.delete = false ∧
      s.event.type ≠ .readToCb ∧ s.event.type ≠ .readToConn then
    { error := 0
      blockedOn := blockedOn
      state := { s with event := { s.event with transferred := iob.getUsed layout s.buffer } } }
  else { error := error, blockedOn := blockedOn, state := s }

/-- What `socketEventProcess` meets: the refill of a read that blocked before, and the rounds of the
process function if it is called. -/
structure ReadInput where
  resume : Option ReadResume
  rounds : Option ReadRounds
  deriving DecidableEq, Repr

/-- `socketEventProcess` for the read events -/
def socketEventProcess (s : ReadState) (input : ReadInput) : Option ReadReturn :=
  match s.event.inProgress, input.resume, input.rounds with
  | false, none, some rounds => readProcess iob s rounds
  | true, some resume, rounds =>
    match s.fillRecvBuffer resume.answer, rounds with
    | some (0, _, s'), some rounds => readProcess iob s' rounds
    | some (err, blockedOn, s'), none =>
      if err = 0 then none else some (resumeFailed iob s' resume.layout err blockedOn)
    | _, _ => none
  | _, _, _ => none

end Process

/-! ### Any sequence of reads on one conn -/

/-- `ConnEventAssign` for a read of `length` octets -/
def connEventAssign (type : ConnEventType) (dataMode : DataMode) (pattern : List UInt8) (length : ℕ) :
    ReadEvent where
  type := type
  dataMode := dataMode
  pattern := pattern
  remaining := if type = .readToCb ∨ type = .readToConn then 0 else length
  count := if type = .readToCb ∨ type = .readToConn then length else 0

structure ReadSystem where
  /-- the reads that have ended, oldest first -/
  past : List ReadEvent
  event : Option ReadEvent
  buffer : List UInt8
  received : List UInt8
  deriving DecidableEq, Repr

inductive ReadAction where
  | start (type : ConnEventType) (dataMode : DataMode) (pattern : List UInt8) (length : ℕ)
  /-- the active read is processed, for the first time or again -/
  | process (input : ReadInput)
  /-- the active read is given up: a timeout, a cancel, or it may not block -/
  | stop
  deriving DecidableEq, Repr

/-- The read goes on when it would block, else it has ended. -/
def ReadSystem.returned (s : ReadSystem) (r : ReadReturn) : ReadSystem :=
  if r.error = Errno.ewouldblock then
    { s with
      event := some { r.state.event with inProgress := true }
      buffer := r.state.buffer
      received := r.state.received }
  else
    { past := s.past ++ [r.state.event]
      event := none
      buffer := r.state.buffer
      received := r.state.received }

/-- One step; `none` when the action is not enabled. -/
def readStep (iob : IOBufferLib) (s : ReadSystem) : ReadAction → Option ReadSystem
  | .start type dataMode pattern length =>
    if s.event = none then some { s with event := some (connEventAssign type dataMode pattern length) }
    else none
  | .process input =>
    match s.event with
    | some e => (socketEventProcess iob ⟨e, s.buffer, s.received⟩ input).map s.returned
    | none => none
  | .stop =>
    match s.event with
    | some e => some { s with past := s.past ++ [e], event := none }
    | none => none

/-- A conn whose receive buffer is empty. -/
def ReadSystem.new : ReadSystem where
  past := []
  event := none
  buffer := []
  received := []

/-- A read that takes what it delivers out of the buffer. -/
def Consuming (type : ConnEventType) (dataMode : DataMode) : Prop :=
  match type with
  | .read | .readCount | .readUntilPattern =>
    dataMode.copy = true ∧ dataMode.delete = true ∧ dataMode.replacePattern = false
  | .readToCb | .readToConn => True
  | _ => False

/-- Only such reads are started. -/
def ConsumingReads (_ : ReadSystem) : ReadAction → Prop
  | .start type dataMode _ _ => Consuming type dataMode
  | _ => True

instance (type : ConnEventType) (dataMode : DataMode) : Decidable (Consuming type dataMode) := by
  cases type <;> unfold Consuming <;> infer_instance

instance (s : ReadSystem) (a : ReadAction) : Decidable (ConsumingReads s a) := by
  cases a <;> unfold ConsumingReads <;> infer_instance

/-- The octets a read has taken, in order. -/
def ReadEvent.took (e : ReadEvent) : List UInt8 := e.delivered ++ e.removed

/-- The reads of a conn in the order they were started. -/
def ReadSystem.events (s : ReadSystem) : List ReadEvent := s.past ++ s.event.toList

/-- **Nothing is lost, duplicated or reordered:** what the reads have taken, followed by the receive buffer,
is what the socket has handed over; `transferred` counts what was delivered. -/
structure Conserved (s : ReadSystem) : Prop where
  stream : s.events.flatMap ReadEvent.took ++ s.buffer = s.received
  transferred : ∀ e ∈ s.events, e.transferred = e.delivered.length

/-! ### What one read does -/

section Conservation

variable {iob : IOBufferLib} {past : List UInt8} {s s' : ReadState}

/-- What is known of a read after `past` was taken by others. -/
structure ReadInv (past : List UInt8) (s : ReadState) : Prop where
  stream : past ++ s.event.took ++ s.buffer = s.received
  transferred : s.event.transferred = s.event.delivered.length

/-- A read that has removed no pattern yet. -/
structure ReadOpen (past : List UInt8) (s : ReadState) : Prop extends ReadInv past s where
  removed : s.event.removed = []
  consuming : Consuming s.event.type s.event.dataMode

theorem ReadOpen.fill {answer : Option ReceiveAnswer} {err : Errno} {blockedOn : SocketEventType}
    (h : ReadOpen past s) (hfill : s.fillRecvBuffer answer = some (err, blockedOn, s')) :
    ReadOpen past s' := by
  unfold ReadState.fillRecvBuffer at hfill
  split at hfill
  · split at hfill <;> cases hfill
    exact h
  next octets =>
    split at hfill <;> cases hfill
    refine ⟨⟨?_, h.transferred⟩, h.removed, h.consuming⟩
    show past ++ s.event.took ++ (s.buffer ++ octets) = s.received ++ octets
    rw [← List.append_assoc, h.stream]
  · split at hfill <;> cases hfill
    exact h

/-- Octets are handed over. -/
theorem ReadOpen.handOver (h : ReadOpen past s) (count : ℕ) (hcount : count ≤ s.buffer.length) :
    ReadOpen past (s.handOver count) := by
  refine ⟨⟨?_, ?_⟩, h.removed, h.consuming⟩
  · have hstream := h.stream
    simp only [ReadEvent.took, h.removed, List.append_nil] at hstream
    simp only [ReadState.handOver, ReadEvent.took, h.removed, List.append_nil]
    rw [← hstream, ← List.append_assoc, List.append_assoc _ (s.buffer.take count),
      List.take_append_drop]
  · simp only [ReadState.handOver, List.length_append, List.length_take, h.transferred]
    omega

/-- Octets are copied to the client's buffer, and leave the receive buffer. -/
theorem ReadOpen.copy_markFree (h : ReadOpen past s) (count : ℕ) :
    ReadOpen past ((s.copyBufferedDataToClient (s.buffer.take count)).markFree count) := by
  refine ⟨⟨?_, ?_⟩, h.removed, h.consuming⟩
  · have hstream := h.stream
    simp only [ReadEvent.took, h.removed, List.append_nil] at hstream
    simp only [ReadState.copyBufferedDataToClient, ReadState.markFree, ReadEvent.took, h.removed,
      List.append_nil]
    rw [← hstream, ← List.append_assoc, List.append_assoc _ (s.buffer.take count),
      List.take_append_drop]
  · simp only [ReadState.copyBufferedDataToClient, ReadState.markFree, List.length_append, h.transferred]

/-- The condition of a buffered read. -/
theorem Consuming.buffered {type : ConnEventType} {dataMode : DataMode} (h : Consuming type dataMode)
    (ht : type ≠ .readToCb) (ht' : type ≠ .readToConn) :
    dataMode.copy = true ∧ dataMode.delete = true ∧ dataMode.replacePattern = false := by
  cases type <;> first | exact h | exact absurd rfl ht | exact absurd rfl ht' | exact absurd h id

/-- The final copy, with the pattern that is removed after it. -/
theorem ReadOpen.copy_removePattern (h : ReadOpen past s) (dataCount patternLen : ℕ) :
    ReadInv past (((s.copyBufferedDataToClient (s.buffer.take dataCount)).removePattern dataCount
      patternLen).markFree (dataCount + patternLen)) := by
  constructor
  · have hstream := h.stream
    simp only [ReadEvent.took, h.removed, List.append_nil] at hstream
    simp only [ReadState.copyBufferedDataToClient, ReadState.removePattern, ReadState.markFree,
      ReadEvent.took, h.removed, List.nil_append]
    rw [← hstream, ← List.drop_drop, ← List.append_assoc, List.append_assoc _ ((s.buffer.drop _).take _),
      List.take_append_drop, ← List.append_assoc, List.append_assoc _ (s.buffer.take _),
      List.take_append_drop]
  · simp only [ReadState.copyBufferedDataToClient, ReadState.removePattern, ReadState.markFree,
      List.length_append, h.transferred]

/-- The same read: moving data changes neither what is asked for nor how. -/
structure ReadState.SameRead (s s' : ReadState) : Prop where
  type : s'.event.type = s.event.type
  dataMode : s'.event.dataMode = s.event.dataMode
  pattern : s'.event.pattern = s.event.pattern

namespace ReadState.SameRead

theorem refl (s : ReadState) : SameRead s s := ⟨rfl, rfl, rfl⟩

theorem markFree (h : SameRead s s') (count : ℕ) : SameRead s (s'.markFree count) :=
  ⟨h.type, h.dataMode, h.pattern⟩

theorem copyBufferedDataToClient (h : SameRead s s') (buff : List UInt8) :
    SameRead s (s'.copyBufferedDataToClient buff) :=
  ⟨h.type, h.dataMode, h.pattern⟩

theorem terminateClientBuffer (h : SameRead s s') : SameRead s s'.terminateClientBuffer :=
  ⟨h.type, h.dataMode, h.pattern⟩

theorem removePattern (h : SameRead s s') (dataCount patternLen : ℕ) :
    SameRead s (s'.removePattern dataCount patternLen) :=
  ⟨h.type, h.dataMode, h.pattern⟩

theorem ite {p : Prop} [Decidable p] {a b : ReadState} (ha : SameRead s a) (hb : SameRead s b) :
    SameRead s (if p then a else b) := by
  split
  · exact ha
  · exact hb

end ReadState.SameRead

/-- The same read, completed or without room. -/
structure ReadState.Final (s : ReadState) (result : Errno × ReadState) : Prop where
  error : result.1 = 0 ∨ result.1 = Errno.emsgsize
  same : s.SameRead result.2

theorem ReadState.Final.ite {p : Prop} [Decidable p] {a b : Errno × ReadState} (ha : s.Final a)
    (hb : s.Final b) : s.Final (if p then a else b) := by
  split
  · exact ha
  · exact hb

/-- **A final move completes the read, or there is no room (proved).** -/
theorem moveFinal_final (dataCount patternLen : ℕ) :
    s.Final (s.moveFinalConditionalDataToClient dataCount patternLen) := by
  have hrefl := ReadState.SameRead.refl s
  have hcopied := fun buff => hrefl.copyBufferedDataToClient buff
  simp only [ReadState.moveFinalConditionalDataToClient]
  apply ReadState.Final.ite
  · apply ReadState.Final.ite
    · exact ⟨.inr rfl, ((hcopied _).markFree _).ite (hcopied _)⟩
    · have hreplaced : ∀ {p : Prop} [Decidable p] buff pattern, s.SameRead
          (if p then (s.copyBufferedDataToClient buff).copyBufferedDataToClient pattern
            else s.copyBufferedDataToClient buff) :=
        fun buff pattern => ((hcopied buff).copyBufferedDataToClient pattern).ite (hcopied buff)
      apply ReadState.Final.ite
      · refine ⟨.inl rfl, (ReadState.SameRead.ite ?_ (ReadState.SameRead.removePattern ?_ _ _)).markFree _⟩
        · exact (hreplaced _ _).terminateClientBuffer.ite (hreplaced _ _)
        · exact (hreplaced _ _).terminateClientBuffer.ite (hreplaced _ _)
      · exact ⟨.inl rfl, (hreplaced _ _).terminateClientBuffer.ite (hreplaced _ _)⟩
  · apply ReadState.Final.ite
    · exact ⟨.inl rfl, hrefl.markFree _⟩
    · exact ⟨.inl rfl, rfl, rfl, rfl⟩

/-- A partial move leaves the read as it is. -/
theorem movePartial_same (moveableCount : ℕ) :
    s.SameRead (s.movePartialConditionalDataToClient moveableCount).2 := by
  have hrefl := ReadState.SameRead.refl s
  simp only [ReadState.movePartialConditionalDataToClient]
  split
  · split
    · exact (hrefl.copyBufferedDataToClient _).markFree _
    · exact hrefl.markFree _
  · exact hrefl

/-- The room a completed read needs after its data. -/
def DataMode.roomAfter (m : DataMode) (patternLen : ℕ) : ℕ :=
  (if m.includePattern then patternLen else 0) + if m.terminate then 1 else 0

/-- What a completed read leaves: the pattern is delivered or removed. -/
def ReadState.completed (s : ReadState) (dataCount patternLen : ℕ) : ReadState :=
  let done := if s.event.dataMode.includePattern then
      (s.copyBufferedDataToClient (s.buffer.take (dataCount + patternLen))).markFree
        (dataCount + patternLen)
    else ((s.copyBufferedDataToClient (s.buffer.take dataCount)).removePattern dataCount
      patternLen).markFree (dataCount + patternLen)
  if s.event.dataMode.terminate then done.terminateClientBuffer else done

/-- **The final move of a consuming read:** all of the data, or what fits. -/
theorem moveFinal_eq (hcopy : s.event.dataMode.copy = true) (hdelete : s.event.dataMode.delete = true)
    (hreplace : s.event.dataMode.replacePattern = false) (dataCount patternLen : ℕ) :
    s.moveFinalConditionalDataToClient dataCount patternLen =
      if s.event.remaining < dataCount + s.event.dataMode.roomAfter patternLen then
        (Errno.emsgsize, (s.copyBufferedDataToClient (s.buffer.take (min dataCount
          s.event.remaining))).markFree (min dataCount s.event.remaining))
      else (0, s.completed dataCount patternLen) := by
  cases hi : s.event.dataMode.includePattern <;> cases ht : s.event.dataMode.terminate <;>
    simp [ReadState.moveFinalConditionalDataToClient, ReadState.completed, DataMode.roomAfter, hcopy,
      hdelete, hreplace, hi, ht, Nat.add_assoc] <;> rfl

theorem completed_inv (h : ReadOpen past s) (dataCount patternLen : ℕ) :
    ReadInv past (s.completed dataCount patternLen) := by
  have hinclude := (h.copy_markFree (dataCount + patternLen)).toReadInv
  have hremove := h.copy_removePattern dataCount patternLen
  unfold ReadState.completed
  split <;> split
  · exact ⟨hinclude.stream, hinclude.transferred⟩
  · exact hinclude
  · exact ⟨hremove.stream, hremove.transferred⟩
  · exact hremove

theorem moveFinal_conserves (h : ReadOpen past s) (hcopy : s.event.dataMode.copy = true)
    (hdelete : s.event.dataMode.delete = true) (hreplace : s.event.dataMode.replacePattern = false)
    {dataCount patternLen : ℕ} {err : Errno}
    (hmove : s.moveFinalConditionalDataToClient dataCount patternLen = (err, s')) :
    ReadInv past s' ∧ (err ≠ 0 → ReadOpen past s') := by
  rw [moveFinal_eq hcopy hdelete hreplace] at hmove
  split at hmove <;> cases hmove
  · have hopen := h.copy_markFree (min dataCount s.event.remaining)
    exact ⟨hopen.toReadInv, fun _ => hopen⟩
  · exact ⟨completed_inv h dataCount patternLen, fun hne => absurd rfl hne⟩

/-- **The partial move of a consuming read (proved).** -/
theorem movePartial_conserves (h : ReadOpen past s) (hcopy : s.event.dataMode.copy = true)
    {moveableCount : ℕ} {err : Errno}
    (hmove : s.movePartialConditionalDataToClient moveableCount = (err, s')) : ReadOpen past s' := by
  simp only [ReadState.movePartialConditionalDataToClient, hcopy, if_true] at hmove
  split at hmove <;> cases hmove
  · exact h.copy_markFree _
  · exact h

theorem satisfyEvent_conserves (h : ReadOpen past s) (ht : s.event.type ≠ .readToCb)
    (ht' : s.event.type ≠ .readToConn) {layout : ℕ} {err : Errno}
    (hsat : satisfyEvent iob s layout = (err, s')) :
    ReadInv past s' ∧ (err ≠ 0 → ReadOpen past s') := by
  obtain ⟨hcopy, hdelete, hreplace⟩ := h.consuming.buffered ht ht'
  rw [satisfyEvent_eq] at hsat
  split at hsat
  · exact moveFinal_conserves h hcopy hdelete hreplace hsat
  · have hopen := movePartial_conserves h hcopy hsat
    exact ⟨hopen.toReadInv, fun _ => hopen⟩

/-- What is known of a process function that has returned. -/
structure ReadSpec (past : List UInt8) (r : ReadReturn) : Prop where
  inv : ReadInv past r.state
  /-- a read that may go on has removed no pattern -/
  goesOn : r.error ≠ 0 → ReadOpen past r.state

theorem ReadOpen.returned (h : ReadOpen past s) (err : Errno) (blockedOn : SocketEventType)
    (asserted : Option Errno) : ReadSpec past ⟨err, blockedOn, s, asserted⟩ :=
  ⟨h.toReadInv, fun _ => h⟩

theorem satisfyEvent_same {layout : ℕ} {err : Errno} (hsat : satisfyEvent iob s layout = (err, s')) :
    s.SameRead s' := by
  rw [satisfyEvent_eq] at hsat
  split at hsat
  next count patternLen _ =>
    have h := (moveFinal_final (s := s) count patternLen).same
    rw [hsat] at h
    exact h
  next count _ _ =>
    have h := movePartial_same (s := s) count
    rw [hsat] at h
    exact h

theorem fillRecvBuffer_event {answer : Option ReceiveAnswer} {err : Errno} {blockedOn : SocketEventType}
    (hfill : s.fillRecvBuffer answer = some (err, blockedOn, s')) : s'.event = s.event := by
  unfold ReadState.fillRecvBuffer at hfill
  split at hfill <;> split at hfill <;> cases hfill <;> rfl

/-- **`conditionalReadProcess` (proved).** -/
theorem conditionalReadProcess_spec : ∀ {rounds : List ReadRound} {s : ReadState} {r : ReadReturn},
    ReadOpen past s → s.event.type ≠ .readToCb → s.event.type ≠ .readToConn →
      conditionalReadProcess iob s rounds = some r → ReadSpec past r
  | [], _, _, _, _, _, hrun => by cases hrun
  | round :: rounds, s, r, h, ht, ht', hrun => by
    unfold conditionalReadProcess at hrun
    split at hrun
    next err s' hsat =>
      obtain ⟨hinv, hopen⟩ := satisfyEvent_conserves h ht ht' hsat
      obtain ⟨htype, hmode, _⟩ := satisfyEvent_same hsat
      split at hrun
      · split at hrun <;> cases hrun
        exact ⟨hinv, hopen⟩
      next answer =>
        split at hrun
        next herr =>
          have hopen' := hopen (by rw [herr]; decide)
          split at hrun
          · cases hrun
          next s'' hfill =>
            have hevent := fillRecvBuffer_event hfill
            refine conditionalReadProcess_spec (hopen'.fill hfill) ?_ ?_ hrun
            · rw [hevent, htype]
              exact ht
            · rw [hevent, htype]
              exact ht'
          next err' blockedOn s'' _ hfill =>
            split at hrun <;> cases hrun
            have hopen'' := hopen'.fill hfill
            obtain ⟨hcopy, _, _⟩ := h.consuming.buffered ht ht'
            -- a consuming read is no test of the buffer
            have hno : ¬ (err' = Errno.enobufs ∧ s''.event.dataMode.copy = false ∧
                s''.event.dataMode.delete = false) := by
              rw [fillRecvBuffer_event hfill, hmode, hcopy]
              rintro ⟨_, hfalse, _⟩
              cases hfalse
            unfold refillFailed
            rw [if_neg hno]
            exact hopen''.returned _ _ _
        · cases hrun

/-- What the callback is offered lies in the buffer. -/
theorem callbackOffer_le {used offered : ℕ} (h : callbackOffer s used = some offered) : offered ≤ used := by
  unfold callbackOffer at h
  split at h
  · split at h <;> cases h
    exact Nat.min_le_left _ _
  · cases h
    exact Nat.le_refl _

/-- What refills keep, and taking octets out of the buffer. -/
structure ReadKept (P : ReadState → Prop) : Prop where
  fill : ∀ {s s' : ReadState} {answer : Option ReceiveAnswer} {err : Errno} {blockedOn : SocketEventType},
    P s → s.fillRecvBuffer answer = some (err, blockedOn, s') → P s'
  handOver : ∀ {s : ReadState} (count : ℕ), P s → count ≤ s.buffer.length → P (s.handOver count)

theorem readOpen_kept (past : List UInt8) : ReadKept (ReadOpen past) :=
  ⟨fun h hfill => h.fill hfill, fun count h hcount => h.handOver count hcount⟩

section Kept

variable {P : ReadState → Prop}

theorem callbackAnswered_keeps (hP : ReadKept P) (h : P s) {layout used taken : ℕ}
    {response : ConnIOCBResponse} {x : RoundEnd} (hused : used ≤ s.buffer.length)
    (hanswer : callbackAnswered iob s layout used taken response = (x, s')) : P s' := by
  unfold callbackAnswered at hanswer
  split at hanswer
  · cases hanswer
    exact h
  next htaken =>
    have hopen := hP.handOver taken h (by omega)
    simp only [] at hanswer
    split at hanswer
    · cases hanswer
      exact hopen
    · cases response <;> simp only [] at hanswer
      case needMoreData =>
        repeat' split at hanswer
        all_goals
          cases hanswer
          exact hopen
      all_goals
        cases hanswer
        exact hopen

theorem callbackRound_keeps (hP : ReadKept P) (h : P s) {layout : ℕ}
    {callback : Option (ℕ × ConnIOCBResponse)} {x : RoundEnd}
    (hround : callbackRound iob s layout callback = some (x, s')) : P s' := by
  unfold callbackRound at hround
  split at hround
  · split at hround
    · cases hround
      exact h
    · split at hround <;> cases hround
      exact h
  · split at hround
    · cases hround
    · obtain ⟨offered, hoffer, hanswer⟩ := Option.map_eq_some_iff.mp hround
      have hle := Nat.le_trans (callbackOffer_le hoffer) (iob.getUsed_le layout s.buffer)
      exact callbackAnswered_keeps hP h hle hanswer

/-- **`readToCallbackProcess` (proved)** keeps what refills and callbacks keep. -/
theorem readToCallbackProcess_keeps (hP : ReadKept P) : ∀ {rounds : List CallbackRound} {s : ReadState}
    {r : ReadReturn}, P s → readToCallbackProcess iob s rounds = some r → P r.state
  | [], _, _, _, hrun => by cases hrun
  | round :: rounds, s, r, h, hrun => by
    unfold readToCallbackProcess at hrun
    split at hrun
    next s' hround _ => exact readToCallbackProcess_keeps hP (callbackRound_keeps hP h hround) hrun
    next err s' hround _ =>
      split at hrun <;> cases hrun
      exact callbackRound_keeps hP h hround
    next s' answer hround _ =>
      have hopen := callbackRound_keeps hP h hround
      split at hrun
      · cases hrun
      next s'' hfill => exact readToCallbackProcess_keeps hP (hP.fill hopen hfill) hrun
      next err blockedOn s'' _ hfill =>
        split at hrun <;> cases hrun
        exact hP.fill hopen hfill
    · cases hrun

/-- The refills of `readToConnProcess`; what is then in one piece lies in the buffer. -/
theorem connFill_keeps (hP : ReadKept P) {stillNeeded : ℕ} : ∀ {fills : List ConnFill} {s s' : ReadState}
    {bufferCount : ℕ} {x : Errno × SocketEventType ⊕ ℕ}, P s →
      bufferCount ≤ s.buffer.length → connFill iob stillNeeded s bufferCount fills = some (x, s') →
        P s' ∧ ∀ count, x = .inr count → count ≤ s'.buffer.length
  | [], s, s', bufferCount, x, h, hle, hrun => by
    unfold connFill at hrun
    split at hrun <;> cases hrun
    refine ⟨h, ?_⟩
    rintro count ⟨⟩
    exact hle
  | fill :: fills, s, s', bufferCount, x, h, hle, hrun => by
    unfold connFill at hrun
    split at hrun
    · cases hrun
    split at hrun
    · cases hrun
    next s'' hfill => exact connFill_keeps hP (hP.fill h hfill) (iob.getUsed_le _ _) hrun
    next err blockedOn s'' herr hfill =>
      have hsame : s'' = s := by
        unfold ReadState.fillRecvBuffer at hfill
        split at hfill <;> split at hfill <;> cases hfill
        · rfl
        · exact absurd rfl herr
        · rfl
      split at hrun
      · cases hrun
      split at hrun <;> cases hrun <;> refine ⟨hP.fill h hfill, ?_⟩ <;> rintro count ⟨⟩
      rw [hsame]
      exact hle

/-- **`readToConnProcess` (proved)** keeps what refills and writes keep. -/
theorem readToConnProcess_keeps (hP : ReadKept P) : ∀ {rounds : List ConnRound} {s : ReadState} {r : ReadReturn},
    P s → readToConnProcess iob s rounds = some r → P r.state
  | [], _, _, h, hrun => by
    unfold readToConnProcess at hrun
    split at hrun <;> cases hrun
    exact h
  | round :: rounds, s, r, h, hrun => by
    unfold readToConnProcess at hrun
    split at hrun
    · cases hrun
    simp only [] at hrun
    split at hrun
    next err blockedOn s' hfill _ =>
      split at hrun <;> cases hrun
      exact (connFill_keeps hP h (iob.getUsed_le _ _) hfill).1
    next bufferCount s' sent errno hfill _ =>
      obtain ⟨hopen, hcount⟩ := connFill_keeps hP h (iob.getUsed_le _ _) hfill
      split at hrun
      · cases hrun
      next hsent =>
        have hle := hcount bufferCount rfl
        have hopen' := hP.handOver sent hopen (by omega)
        split at hrun
        · exact readToConnProcess_keeps hP hopen' hrun
        · split at hrun <;> cases hrun
          exact hopen'
    · cases hrun

end Kept

theorem readProcess_spec (h : ReadOpen past s) {rounds : ReadRounds} {r : ReadReturn}
    (hrun : readProcess iob s rounds = some r) : ReadSpec past r := by
  unfold readProcess at hrun
  split at hrun
  next ht =>
    exact conditionalReadProcess_spec h (by rw [ht]; decide) (by rw [ht]; decide) hrun
  next ht =>
    exact conditionalReadProcess_spec h (by rw [ht]; decide) (by rw [ht]; decide) hrun
  next ht =>
    exact conditionalReadProcess_spec h (by rw [ht]; decide) (by rw [ht]; decide) hrun
  · have hopen := readToCallbackProcess_keeps (readOpen_kept past) h hrun
    exact ⟨hopen.toReadInv, fun _ => hopen⟩
  · have hopen := readToConnProcess_keeps (readOpen_kept past) h hrun
    exact ⟨hopen.toReadInv, fun _ => hopen⟩
  · cases hrun

/-- A consuming read is no test of the buffer. -/
theorem resumeFailed_eq (h : ReadOpen past s) (layout : ℕ) (err : Errno) (blockedOn : SocketEventType) :
    resumeFailed iob s layout err blockedOn = { error := err, blockedOn := blockedOn, state := s } := by
  unfold resumeFailed
  split
  next hno =>
    obtain ⟨_, hcopy, _, ht, ht'⟩ := hno
    rw [(h.consuming.buffered ht ht').1] at hcopy
    cases hcopy
  · rfl

/-- **`socketEventProcess` for a consuming read (proved).** -/
theorem socketEventProcess_spec (h : ReadOpen past s) {input : ReadInput} {r : ReadReturn}
    (hrun : socketEventProcess iob s input = some r) : ReadSpec past r := by
  unfold socketEventProcess at hrun
  split at hrun
  · exact readProcess_spec h hrun
  next resume rounds _ =>
    split at hrun
    next s' rounds hfill _ => exact readProcess_spec (h.fill hfill) hrun
    next err blockedOn s' hfill _ =>
      have hopen := h.fill hfill
      split at hrun
      · cases hrun
      · rw [resumeFailed_eq hopen] at hrun
        cases hrun
        exact hopen.returned _ _ _
    · cases hrun
  · cases hrun

end Conservation

/-! ### Every sequence of reads -/

section Runs

variable {iob : IOBufferLib} {s s' : ReadSystem}

/-- The octets the ended reads have taken. -/
def ReadSystem.taken (s : ReadSystem) : List UInt8 := s.past.flatMap ReadEvent.took

/-- What is known of a conn between two calls. -/
structure ReadSystemInv (s : ReadSystem) : Prop where
  past : ∀ e ∈ s.past, e.transferred = e.delivered.length
  idle : s.event = none → s.taken ++ s.buffer = s.received
  active : ∀ e ∈ s.event, ReadOpen s.taken ⟨e, s.buffer, s.received⟩

theorem ReadSystemInv.conserved (h : ReadSystemInv s) : Conserved s := by
  cases he : s.event with
  | none =>
    have hevents : s.events = s.past := by simp [ReadSystem.events, he]
    constructor
    · rw [hevents]
      exact h.idle he
    · rw [hevents]
      exact h.past
  | some e =>
    have hevents : s.events = s.past ++ [e] := by simp [ReadSystem.events, he]
    have hopen := h.active e he
    constructor
    · rw [hevents, List.flatMap_append, List.flatMap_singleton]
      exact hopen.stream
    · rw [hevents]
      intro x hx
      rcases List.mem_append.mp hx with hx | hx
      · exact h.past x hx
      · rw [List.mem_singleton.mp hx]
        exact hopen.transferred

/-- A read that ends. -/
theorem ReadInv.ended {e : ReadEvent} {buffer received : List UInt8} (h : ReadSystemInv s)
    (hinv : ReadInv s.taken ⟨e, buffer, received⟩) :
    ReadSystemInv ⟨s.past ++ [e], none, buffer, received⟩ := by
  constructor
  · intro x hx
    rcases List.mem_append.mp hx with hx | hx
    · exact h.past x hx
    · rw [List.mem_singleton.mp hx]
      exact hinv.transferred
  · intro _
    show (s.past ++ [e]).flatMap ReadEvent.took ++ buffer = received
    rw [List.flatMap_append, List.flatMap_singleton]
    exact hinv.stream
  · exact fun x hx => by cases hx

/-- **One step keeps the invariant.** -/
theorem readStep_inv {a : ReadAction} (h : ReadSystemInv s) (hok : ConsumingReads s a)
    (hstep : readStep iob s a = some s') : ReadSystemInv s' := by
  cases a with
  | start type dataMode pattern length =>
    simp only [readStep] at hstep
    split at hstep <;> cases hstep
    next hnone =>
      refine ⟨h.past, fun hx => (by cases hx), ?_⟩
      rintro e ⟨⟩
      refine ⟨⟨?_, rfl⟩, rfl, hok⟩
      show s.taken ++ [] ++ s.buffer = s.received
      rw [List.append_nil]
      exact h.idle hnone
  | process input =>
    simp only [readStep] at hstep
    split at hstep
    next e he =>
      obtain ⟨r, hr, rfl⟩ := Option.map_eq_some_iff.mp hstep
      have hspec := socketEventProcess_spec (h.active e he) hr
      unfold ReadSystem.returned
      split
      next hblock =>
        have hopen := hspec.goesOn (by rw [hblock]; decide)
        refine ⟨h.past, fun hx => (by cases hx), ?_⟩
        rintro x ⟨⟩
        exact ⟨⟨hopen.stream, hopen.transferred⟩, hopen.removed, hopen.consuming⟩
      · exact ReadInv.ended h hspec.inv
    · cases hstep
  | stop =>
    simp only [readStep] at hstep
    split at hstep <;> cases hstep
    next e he => exact ReadInv.ended h (h.active e he).toReadInv

/-- **Inbound conservation (proved):** in every sequence of consuming reads, however the wire splits the
stream and however each read ends. -/
theorem reachable_conserved (h : ReachableVia (enabled (readStep iob)) ConsumingReads .new s) :
    Conserved s := by
  have hinit : ReadSystemInv .new :=
    ⟨fun e he => (by cases he), fun _ => rfl, fun e he => (by cases he)⟩
  exact (h.invariant hinit fun _ _ _ hinv hok hstep => readStep_inv hinv hok hstep).conserved

end Runs

/-! ### A line in two pieces -/

/-- A ring buffer whose octets lie in one piece, searched for fixed words. -/
def IOBufferLib.onePiece : IOBufferLib where
  getUsed := fun _ b => b.length
  defrag := fun _ _ => false
  search := fun _ pattern b =>
    match firstMatch (pattern.getD [13, 10]) b with
    | some p => .found p (pattern.getD [13, 10]).length
    | none => .notFound (b.length - ((pattern.getD [13, 10]).length - 1))
  searched := fun _ _ b => b
  getUsed_le := fun _ _ => Nat.le_refl _
  getUsed_pos := fun _ _ h => List.length_pos_iff.mpr h
  search_found := by
    intro _ pattern b count patternLen h
    split at h <;> cases h
    next hm =>
      obtain ⟨hmatch, hle, _⟩ := firstMatch_eq_some.mp hm
      exact add_length_le_of_prefix_drop hmatch hle
  search_notFound := by
    intro _ pattern b count h
    split at h <;> cases h
    exact Nat.sub_le _ _
  searched_eq := fun _ _ _ => rfl

/-- The line `ab\n` arrives as `a` and `b\nc`, and the read blocks in between. -/
def lineReads : List ReadAction :=
  [.start .readUntilPattern { copy := true, delete := true } [10] 5,
    .process ⟨none, some (.conditional [⟨0, some (some (.data [97]))⟩,
      ⟨0, some (some (.fails Errno.ewouldblock .readable))⟩])⟩,
    .process ⟨some ⟨0, some (.data [98, 10, 99])⟩, some (.conditional [⟨0, none⟩])⟩]

theorem reachable_conserved_line : ∃ s : ReadSystem,
    runFrom (readStep .onePiece) .new lineReads = some s ∧ Conserved s ∧ s.buffer = [99] := by
  have hrun : runFrom (guarded ConsumingReads (readStep .onePiece)) .new lineReads = some
      ⟨[{ type := .readUntilPattern, dataMode := { copy := true, delete := true }, pattern := [10],
          remaining := 3, transferred := 2, inProgress := true, delivered := [97, 98],
          removed := [10] }], none, [99], [97, 98, 10, 99]⟩ := by decide
  exact ⟨_, by decide, reachable_conserved (reachableVia_of_runFrom hrun), rfl⟩

end Connio
