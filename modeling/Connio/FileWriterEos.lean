import Connio.CountedRuns
import Connio.Lib.Inevitable
import Connio.Lib.WordMatch

/-!
# The end-of-stream file writer

`_ConnFileWriterEOS` (`callbacks.c`): the callback that copies a stream to a file up to a dot on a line of its own, and
`readToCallbackProcess` when it calls this callback.

* `terminators` — the four ways a terminator is written;
* `EosSearch`, `RingBuffer` — what the code relies on of `MemSearch` and of the receive buffer;
* `connFileWriterEos` — the callback; `eosStep` — the read with this callback, while the stream arrives;
* `EosExact` — whatever is offered when, the read ends, the file has all before the terminator and one terminator, and
  what follows is unread;
* `eosStep_holds`, `eosStep_rank` — **PROVED**: what one step keeps, and what it lowers;
* `eosExact_iff` — **PROVED**: the read is exact only for the terminator of five octets.

The replacement of NUL octets during the search is left out.
-/

namespace Connio

open Connio.Lib

/-! ### The terminator -/

/-- A line end, a dot, a line end. -/
def terminators : WordSet UInt8 where
  words := [[10, 46, 10], [10, 46, 13, 10], [13, 10, 46, 10], [13, 10, 46, 13, 10]]
  nonempty := by decide
  prefixFree := by decide
  endsAt := by decide

/-- **`MemSearch` for `"\n.\n"` with `SEARCH_IGNORE_CR`:** the offset of the first match and that there is one, or a prefix
in which no match begins.  It holds back no more than can be the start of a match. -/
structure EosSearch where
  memSearch : List UInt8 → ℕ × Bool
  found : ∀ {b p l}, terminators.firstWord b = some (p, l) → memSearch b = (p, true)
  notFound : ∀ {b}, terminators.firstWord b = none → ∃ n, memSearch b = (n, false) ∧ n ≤ b.length ∧
    terminators.matcher.NoneBefore b n ∧ b.length < n + 5

/-- A receive buffer whose pieces `IOBDefrag` joins. -/
structure RingBuffer extends IOBufferLib where
  defrag_iff : ∀ layout b, defrag layout b = true ↔ getUsed layout b < b.length
  joined : ∀ b, ∃ layout, getUsed layout b = b.length

/-! ### The callback -/

/-- `"\r\n.\r\n"` -/
def eosLine : List UInt8 := [13, 10, 46, 13, 10]

/-- What a call of the callback does: the octets in the file, `*size`, and what it returns. -/
structure EosAnswer where
  written : List UInt8
  size : ℕ
  response : ConnIOCBResponse
  deriving DecidableEq, Repr

/-- `_ConnFileWriterEOS`; `fp` says that there is a file, and `fwrite` how many octets it accepts. -/
def connFileWriterEos (memSearch : List UInt8 → ℕ × Bool) (fp : Bool) (fwrite : List UInt8 → ℕ)
    (buffer : List UInt8) : EosAnswer :=
  if fp then
    match memSearch buffer with
    | (bytes, isMatch) =>
      let head := buffer.take bytes
      if 0 < bytes ∧ fwrite head ≠ bytes then
        { written := head.take (fwrite head), size := 0, response := .error }
      else if isMatch then
        if fwrite eosLine ≠ 5 then
          { written := head ++ eosLine.take (fwrite eosLine), size := bytes, response := .error }
        else { written := head ++ eosLine, size := bytes + 5, response := .done }
      else { written := head, size := bytes, response := if bytes ≠ 0 then .goOn else .needMoreData }
  else { written := [], size := 0, response := .error }

section Callback

variable (search : EosSearch) {b : List UInt8}

/-- **A block with a terminator (proved):** five octets are taken for it. -/
theorem connFileWriterEos_found {p l : ℕ} (h : terminators.firstWord b = some (p, l)) :
    connFileWriterEos search.memSearch true List.length b =
      { written := b.take p ++ eosLine, size := p + 5, response := .done } := by
  have hlength : (b.take p).length = p := by
    have := WordSet.firstWord_le h
    rw [List.length_take]
    omega
  simp [connFileWriterEos, search.found h, hlength, eosLine]

/-- **A block without one (proved):** what may begin one is not taken. -/
theorem connFileWriterEos_notFound (h : terminators.firstWord b = none) :
    ∃ n, n ≤ b.length ∧ terminators.matcher.NoneBefore b n ∧ b.length < n + 5 ∧
      connFileWriterEos search.memSearch true List.length b =
        { written := b.take n, size := n, response := if n ≠ 0 then .goOn else .needMoreData } := by
  obtain ⟨n, hsearch, hle, hnone, hrest⟩ := search.notFound h
  refine ⟨n, hle, hnone, hrest, ?_⟩
  have hlength : (b.take n).length = n := List.length_take_of_le hle
  simp [connFileWriterEos, hsearch, hlength]

end Callback

/-! ### The read -/

/-- What is below the read. -/
structure EosIo where
  ring : RingBuffer
  search : EosSearch

/-- A read with this callback, the file, and the part of the stream that has not arrived. -/
structure EosRead where
  read : LoopState Errno ReadState
  file : List UInt8
  incoming : List UInt8
  /-- the pieces of the buffer have just been joined -/
  whole : Bool

/-- What is left of the stream when the socket has answered; `none` when it cannot answer so. -/
def arrives (incoming : List UInt8) : Option ReceiveAnswer → Option (List UInt8)
  | none => some incoming
  | some (.data octets) => if octets <+: incoming then some (incoming.drop octets.length) else none
  | some (.fails error blockedOn) => if error = Errno.ewouldblock ∧ blockedOn ≠ .none then some incoming else none

inductive EosAction where
  | round (layout : ℕ) (fill : Option (Option ReceiveAnswer))
  /-- a read that waits is resumed when octets have arrived -/
  | resume (octets : List UInt8)
  deriving DecidableEq, Repr

namespace EosRead

/-- What the callback does in a round; `none` when it is not called. -/
def answer (s : EosRead) (io : EosIo) (layout : ℕ) : Option EosAnswer :=
  (s.read.state.offered io.ring.toIOBufferLib layout).map fun used =>
    connFileWriterEos io.search.memSearch true List.length (s.read.state.buffer.take used)

/-- The state after a round or a refill. -/
def after (s : EosRead) (answer : Option EosAnswer) (fill : Option (Option ReceiveAnswer))
    (read : LoopState Errno ReadState) : Option EosRead :=
  (fill.elim (some s.incoming) (arrives s.incoming)).map fun incoming =>
    { read := read
      file := s.file ++ answer.elim [] EosAnswer.written
      incoming := incoming
      whole := fill.isNone && answer.any fun a => a.response = .needMoreData }

/-- A read of `ConnReadToCB`. -/
def start (buffer incoming : List UInt8) : EosRead :=
  { read := cbReadStart 0 buffer, file := [], incoming := incoming, whole := false }

end EosRead

/-- **One step.** -/
def eosStep (io : EosIo) (s : EosRead) : EosAction → Option EosRead
  | .round layout fill =>
    if s.whole = true ∧ io.ring.getUsed layout s.read.state.buffer ≠ s.read.state.buffer.length then none
    else
      let callback := (s.answer io layout).map fun a => (a.size, a.response)
      ((cbReadLoop io.ring.toIOBufferLib).step s.read (.round ⟨layout, callback, fill⟩)).bind
        (s.after (s.answer io layout) fill)
  | .resume octets =>
    ((cbReadLoop io.ring.toIOBufferLib).step s.read (.resume (some (.data octets)))).bind
      (s.after none (some (some (.data octets))))

/-- **A stream with a terminator:** the octets before the first one, and its length. -/
structure TerminatedStream where
  octets : List UInt8
  before : ℕ
  terminatorLen : ℕ
  first : terminators.firstWord octets = some (before, terminatorLen)

/-- The read has copied all before the terminator, and one terminator; all after it is unread. -/
structure EosDone (stream : TerminatedStream) (s : EosRead) : Prop where
  ended : s.read.phase = .ended 0
  file : s.file = stream.octets.take stream.before ++ eosLine
  unread : s.read.state.buffer ++ s.incoming = stream.octets.drop (stream.before + stream.terminatorLen)

/-- **The writer consumes exactly through the terminator,** however the stream is split and offered. -/
def EosExact (io : EosIo) (stream : TerminatedStream) : Prop :=
  ∀ buffer incoming, buffer ++ incoming = stream.octets → buffer.length ≤ connIobSize →
    Inevitably (enabled (eosStep io)) (EosDone stream) (.start buffer incoming)

/-! ### One round -/

/-- The first `copied` octets of the stream are in the file, the rest is unread, and no terminator has been passed. -/
structure EosCopied (stream : TerminatedStream) (copied : ℕ) (state : ReadState) (file incoming : List UInt8) : Prop where
  le : copied ≤ stream.before
  count : state.event.count = 0
  file : file = stream.octets.take copied
  unread : state.buffer ++ incoming = stream.octets.drop copied

section Round

variable {io : EosIo} {stream : TerminatedStream} {copied : ℕ} {state : ReadState} {file incoming : List UInt8}

theorem EosCopied.firstWord (h : EosCopied stream copied state file incoming) :
    terminators.firstWord (state.buffer ++ incoming) = some (stream.before - copied, stream.terminatorLen) := by
  rw [h.unread]
  exact WordSet.firstWord_drop stream.first h.le

/-- A block is the start of what is unread. -/
theorem EosCopied.block (h : EosCopied stream copied state file incoming) (used : ℕ) :
    terminators.firstWord (state.buffer.take used ++ (state.buffer.drop used ++ incoming)) =
      some (stream.before - copied, stream.terminatorLen) := by
  rw [← List.append_assoc, List.take_append_drop]
  exact h.firstWord

/-- The match in a block is the first terminator. -/
theorem EosCopied.found (h : EosCopied stream copied state file incoming) {used p l : ℕ}
    (hfound : terminators.firstWord (state.buffer.take used) = some (p, l)) :
    p = stream.before - copied ∧ l = stream.terminatorLen := by
  have hblock := h.block used
  rw [WordSet.firstWord_append _ hfound] at hblock
  cases hblock
  exact ⟨rfl, rfl⟩

/-- As long as the buffer has no terminator, a part of the stream has not arrived. -/
theorem EosCopied.incoming_ne_nil (h : EosCopied stream copied state file incoming)
    (hnone : terminators.firstWord state.buffer = none) : incoming ≠ [] := by
  rintro rfl
  have hfirst := h.firstWord
  rw [List.append_nil, hnone] at hfirst
  cases hfirst

theorem EosCopied.handOver (h : EosCopied stream copied state file incoming) {n : ℕ} (hn : n ≤ stream.before - copied)
    (hbuffer : n ≤ state.buffer.length) :
    EosCopied stream (copied + n) (state.handOver n) (file ++ state.buffer.take n) incoming := by
  have hle := h.le
  have htake : state.buffer.take n = (stream.octets.drop copied).take n := by
    rw [← h.unread, List.take_append_of_le_length hbuffer]
  refine ⟨by omega, h.count, ?_, ?_⟩
  · rw [htake, h.file, List.take_add]
  · change state.buffer.drop n ++ incoming = stream.octets.drop (copied + n)
    rw [← List.drop_append_of_le_length hbuffer, h.unread, List.drop_drop]

theorem EosCopied.refill (h : EosCopied stream copied state file incoming) {octets : List UInt8}
    (hoctets : octets <+: incoming) :
    EosCopied stream copied { state with buffer := state.buffer ++ octets, received := state.received ++ octets } file
      (incoming.drop octets.length) := by
  refine ⟨h.le, h.count, h.file, ?_⟩
  obtain ⟨rest, rfl⟩ := hoctets
  rw [List.drop_left]
  change state.buffer ++ octets ++ rest = _
  rw [List.append_assoc]
  exact h.unread

/-- **What a round does up to the refill.** -/
inductive EosRound (io : EosIo) (stream : TerminatedStream) (copied : ℕ) (s : EosRead) (layout : ℕ) : Prop
  | empty
      (answer : s.answer io layout = none)
      (round : callbackRound io.ring.toIOBufferLib s.read.state layout none = some (.fill, s.read.state))
      (buffer : s.read.state.buffer = [])
  | matched
      (used : ℕ)
      (answer : s.answer io layout = some
        ⟨s.read.state.buffer.take (stream.before - copied) ++ eosLine, stream.before - copied + 5, .done⟩)
      (round : callbackRound io.ring.toIOBufferLib s.read.state layout (some (stream.before - copied + 5, .done)) =
        some (if used < stream.before - copied + 5 then (.ret Errno.econniocblong, s.read.state)
          else (.ret 0, s.read.state.handOver (stream.before - copied + 5))))
      (used_le : used ≤ s.read.state.buffer.length)
      (le : stream.before - copied + stream.terminatorLen ≤ used)
  | moved
      (n : ℕ)
      (answer : s.answer io layout = some ⟨s.read.state.buffer.take n, n, .goOn⟩)
      (round : callbackRound io.ring.toIOBufferLib s.read.state layout (some (n, .goOn)) =
        some (.again, s.read.state.handOver n))
      (pos : 0 < n)
      (le : n ≤ stream.before - copied)
      (buffer : n ≤ s.read.state.buffer.length)
  | joins
      (answer : s.answer io layout = some ⟨[], 0, .needMoreData⟩)
      (round : callbackRound io.ring.toIOBufferLib s.read.state layout (some (0, .needMoreData)) =
        some (.again, s.read.state.handOver 0))
      (pieces : io.ring.getUsed layout s.read.state.buffer ≠ s.read.state.buffer.length)
  | needs
      (answer : s.answer io layout = some ⟨[], 0, .needMoreData⟩)
      (round : callbackRound io.ring.toIOBufferLib s.read.state layout (some (0, .needMoreData)) =
        some (.fill, s.read.state.handOver 0))
      (short : s.read.state.buffer.length < 5)
      (nothing : terminators.firstWord s.read.state.buffer = none)

/-- **The cases of a round (proved).** -/
theorem eosRound_cases {s : EosRead} (h : EosCopied stream copied s.read.state s.file s.incoming) (layout : ℕ) :
    EosRound io stream copied s layout := by
  have hused := io.ring.getUsed_le layout s.read.state.buffer
  by_cases hzero : io.ring.getUsed layout s.read.state.buffer = 0
  · have hbuffer : s.read.state.buffer = [] := by
      by_contra hne
      have := io.ring.getUsed_pos layout _ hne
      omega
    refine .empty ?_ ?_ hbuffer
    · simp [EosRead.answer, ReadState.offered, hzero]
    · simp [callbackRound, hzero]
  · generalize hn : io.ring.getUsed layout s.read.state.buffer = used at hused hzero
    have hoffer : callbackOffer s.read.state used = some used := if_neg (not_not.mpr h.count)
    have hanswer : s.answer io layout = some (connFileWriterEos io.search.memSearch true List.length
        (s.read.state.buffer.take used)) := by
      simp [EosRead.answer, ReadState.offered, hn, hzero, hoffer]
    have hround : ∀ taken response, callbackRound io.ring.toIOBufferLib s.read.state layout (some (taken, response)) =
        some (callbackAnswered io.ring.toIOBufferLib s.read.state layout used taken response) := by
      intro taken response
      simp [callbackRound, hn, hzero, hoffer]
    have hcount : ∀ n, (s.read.state.handOver n).event.count = 0 := fun _ => h.count
    have htake : (s.read.state.buffer.take used).length = used := List.length_take_of_le hused
    cases hfirst : terminators.firstWord (s.read.state.buffer.take used) with
    | some r =>
      obtain ⟨p, l⟩ := r
      have hle := WordSet.firstWord_le hfirst
      obtain ⟨rfl, rfl⟩ := h.found hfirst
      rw [htake] at hle
      rw [connFileWriterEos_found io.search hfirst, List.take_take, Nat.min_eq_left (by omega)] at hanswer
      refine .matched used hanswer ?_ hused hle
      rw [hround]
      unfold callbackAnswered
      split
      · rfl
      · simp [hcount]
    | none =>
      obtain ⟨n, hle, hnone, hrest, hcall⟩ := connFileWriterEos_notFound io.search hfirst
      rw [htake] at hle hrest
      rw [hcall, List.take_take, Nat.min_eq_left hle] at hanswer
      by_cases hpos : n = 0
      · subst hpos
        have hdefrag := io.ring.defrag_iff layout s.read.state.buffer
        rw [hn] at hdefrag
        by_cases hpieces : used < s.read.state.buffer.length
        · refine .joins hanswer ?_ (by omega)
          rw [hround]
          simp [callbackAnswered, ReadState.handOver, Ne.symm hzero, hdefrag.mpr hpieces]
        · have hfull : (s.read.state.buffer.length = connIobSize) = False := by
            unfold connIobSize
            exact eq_false (by omega)
          refine .needs hanswer ?_ (by omega) ?_
          · rw [hround]
            have hnot : io.ring.defrag layout s.read.state.buffer = false :=
              Bool.eq_false_iff.mpr fun htrue => hpieces (hdefrag.mp htrue)
            simp [callbackAnswered, ReadState.handOver, Ne.symm hzero, hnot, hfull]
          · rwa [List.take_of_length_le (by omega)] at hfirst
      · simp only [if_pos hpos] at hanswer
        refine .moved n hanswer ?_ (by omega) (hnone _ _ _ (h.block used)) (by omega)
        rw [hround]
        simp [callbackAnswered, hcount, Nat.not_lt.mpr hle]

end Round

/-! ### The outcome of a round -/

section Outcome

variable {iob : IOBufferLib} {s s' : ReadState} {layout : ℕ} {callback : Option (ℕ × ConnIOCBResponse)}
  {fill : Option (Option ReceiveAnswer)} {o : LoopOutcome Errno ReadState}

theorem cbReadLoop_again (hround : callbackRound iob s layout callback = some (.again, s'))
    (h : (cbReadLoop iob).round s ⟨layout, callback, fill⟩ = some o) : fill = none ∧ o = .again s' := by
  unfold cbReadLoop at h
  simp only [hround] at h
  cases fill with
  | none =>
    cases h
    exact ⟨rfl, rfl⟩
  | some answer => cases h

theorem cbReadLoop_ret {err : Errno} (hround : callbackRound iob s layout callback = some (.ret err, s'))
    (h : (cbReadLoop iob).round s ⟨layout, callback, fill⟩ = some o) : fill = none ∧ o = .ends err s' := by
  unfold cbReadLoop at h
  simp only [hround] at h
  cases fill with
  | none =>
    cases h
    exact ⟨rfl, rfl⟩
  | some answer => cases h

theorem cbReadLoop_fill (hround : callbackRound iob s layout callback = some (.fill, s'))
    (h : (cbReadLoop iob).round s ⟨layout, callback, fill⟩ = some o) :
    ∃ answer, fill = some answer ∧ (s'.fillRecvBuffer answer).map refillOutcome = some o := by
  unfold cbReadLoop at h
  simp only [hround] at h
  cases fill with
  | none => cases h
  | some answer => exact ⟨answer, rfl, h⟩

/-- **A refill while the buffer is nearly empty (proved):** octets have arrived, or the read waits. -/
theorem refill_cases {incoming incoming' : List UInt8} {answer : Option ReceiveAnswer} (hshort : s.buffer.length < 5)
    (ho : (s.fillRecvBuffer answer).map refillOutcome = some o) (harrives : arrives incoming answer = some incoming') :
    (∃ octets, octets ≠ [] ∧ octets <+: incoming ∧ incoming' = incoming.drop octets.length ∧
      o = .again { s with buffer := s.buffer ++ octets, received := s.received ++ octets }) ∨
    (∃ error blockedOn, answer = some (.fails error blockedOn)) ∧ incoming' = incoming ∧ o = .waits s := by
  obtain ⟨⟨err, blockedOn, s'⟩, hfill, rfl⟩ := Option.map_eq_some_iff.mp ho
  cases answer with
  | none =>
    simp only [ReadState.fillRecvBuffer] at hfill
    split at hfill <;> cases hfill
    next hfull =>
      unfold connIobSize at hfull
      omega
  | some answer =>
    cases answer with
    | data octets =>
      left
      simp only [ReadState.fillRecvBuffer] at hfill
      split at hfill <;> cases hfill
      next hfits =>
        obtain ⟨hstarts, heq⟩ := Option.ite_none_right_eq_some.mp harrives
        cases heq
        exact ⟨octets, hfits.1, hstarts, rfl, rfl⟩
    | fails error blocked =>
      right
      simp only [ReadState.fillRecvBuffer] at hfill
      split at hfill <;> cases hfill
      obtain ⟨⟨rfl, hblocked⟩, heq⟩ := Option.ite_none_right_eq_some.mp harrives
      cases heq
      refine ⟨⟨_, _, rfl⟩, rfl, ?_⟩
      unfold refillOutcome returnedOutcome
      rw [if_neg (show Errno.ewouldblock ≠ 0 by decide), if_pos ⟨rfl, hblocked⟩]

end Outcome

/-! ### The run -/

/-- The read has passed the first terminator as if it had five octets. -/
structure EosPassed (stream : TerminatedStream) (s : EosRead) : Prop where
  file : s.file = stream.octets.take stream.before ++ eosLine
  le : stream.before + 5 ≤ stream.octets.length
  unread : s.read.state.buffer ++ s.incoming = stream.octets.drop (stream.before + 5)

/-- **What holds in each phase.** -/
def EosHolds (stream : TerminatedStream) (s : EosRead) : Prop :=
  match s.read.phase with
  | .running => ∃ copied, EosCopied stream copied s.read.state s.file s.incoming
  | .waiting => s.read.state.buffer.length < 5 ∧ s.incoming ≠ [] ∧
      ∃ copied, EosCopied stream copied s.read.state s.file s.incoming
  | .ended err => (err = 0 → EosPassed stream s) ∧ (stream.terminatorLen = 5 → err = 0)

/-- What is still to be done: octets to arrive, octets to copy, pieces to join. -/
def EosRead.rank (s : EosRead) : ℕ :=
  4 * s.read.state.buffer.length + 8 * s.incoming.length +
    match s.read.phase with
    | .running => if s.whole then 1 else 2
    | _ => 0

section Steps

variable {io : EosIo} {stream : TerminatedStream} {s t : EosRead}

theorem eosStep_round {layout : ℕ} {fill : Option (Option ReceiveAnswer)}
    (h : eosStep io s (.round layout fill) = some t) :
    s.read.phase = .running ∧
    (s.whole = true → io.ring.getUsed layout s.read.state.buffer = s.read.state.buffer.length) ∧
    ∃ o, (cbReadLoop io.ring.toIOBufferLib).round s.read.state
        ⟨layout, (s.answer io layout).map fun a => (a.size, a.response), fill⟩ = some o ∧
      s.after (s.answer io layout) fill o.standing = some t := by
  simp only [eosStep] at h
  obtain ⟨hwhole, hbind⟩ := Option.ite_none_left_eq_some.mp h
  obtain ⟨read, hstep, hafter⟩ := Option.bind_eq_some_iff.mp hbind
  obtain ⟨hrunning, o, ho, rfl⟩ := Loop.step_round hstep
  refine ⟨hrunning, fun hw => ?_, o, ho, hafter⟩
  by_contra hne
  exact hwhole ⟨hw, hne⟩

/-- A refill keeps the outline; one that does not block lowers the rank. -/
theorem refill_holds {copied : ℕ} {state : ReadState} {file incoming incoming' : List UInt8}
    {answer : Option ReceiveAnswer} {o : LoopOutcome Errno ReadState}
    (h : EosCopied stream copied state file incoming) (hshort : state.buffer.length < 5) (hmore : incoming ≠ [])
    (ho : (state.fillRecvBuffer answer).map refillOutcome = some o) (harrives : arrives incoming answer = some incoming') :
    EosHolds stream ⟨o.standing, file, incoming', false⟩ ∧
    (⟨o.standing, file, incoming', false⟩ : EosRead).rank ≤ 4 * state.buffer.length + 8 * incoming.length ∧
    ∀ octets, answer = some (.data octets) →
      (⟨o.standing, file, incoming', false⟩ : EosRead).rank < 4 * state.buffer.length + 8 * incoming.length := by
  rcases refill_cases hshort ho harrives with ⟨octets, hne, hstarts, rfl, rfl⟩ | ⟨⟨error, blockedOn, rfl⟩, rfl, rfl⟩
  · have hpos := List.length_pos_iff.mpr hne
    have hle := hstarts.length_le
    have hlower : (⟨(LoopOutcome.again { state with
        buffer := state.buffer ++ octets, received := state.received ++ octets }).standing, file,
        incoming.drop octets.length, false⟩ : EosRead).rank < 4 * state.buffer.length + 8 * incoming.length := by
      simp only [EosRead.rank, LoopOutcome.standing, List.length_append, List.length_drop, Bool.false_eq_true, if_false]
      omega
    exact ⟨⟨copied, h.refill hstarts⟩, Nat.le_of_lt hlower, fun _ _ => hlower⟩
  · exact ⟨⟨hshort, hmore, copied, h⟩, Nat.le_refl _, fun _ hdata => by cases hdata⟩

theorem EosRead.after_round {a : EosAnswer} {read : LoopState Errno ReadState}
    (h : s.after (some a) none read = some t) :
    t = ⟨read, s.file ++ a.written, s.incoming, decide (a.response = .needMoreData)⟩ := by
  cases h
  rfl

theorem EosRead.after_fill {answer : Option EosAnswer} {fill : Option ReceiveAnswer}
    {read : LoopState Errno ReadState} (h : s.after answer (some fill) read = some t) :
    ∃ incoming', arrives s.incoming fill = some incoming' ∧
      t = ⟨read, s.file ++ answer.elim [] EosAnswer.written, incoming', false⟩ := by
  obtain ⟨incoming', harrives, rfl⟩ := Option.map_eq_some_iff.mp h
  exact ⟨incoming', harrives, rfl⟩

/-- **A round keeps the outline and lowers the rank (proved).** -/
theorem eosStep_round_holds {layout : ℕ} {fill : Option (Option ReceiveAnswer)} (hs : EosHolds stream s)
    (h : eosStep io s (.round layout fill) = some t) : EosHolds stream t ∧ t.rank < s.rank := by
  obtain ⟨hrunning, hwhole, o, ho, hafter⟩ := eosStep_round h
  obtain ⟨copied, hcopied⟩ : ∃ copied, EosCopied stream copied s.read.state s.file s.incoming := by
    unfold EosHolds at hs
    rwa [hrunning] at hs
  have hrank : s.rank = 4 * s.read.state.buffer.length + 8 * s.incoming.length + if s.whole then 1 else 2 := by
    unfold EosRead.rank
    rw [hrunning]
  have hmoves : 4 * s.read.state.buffer.length + 8 * s.incoming.length < s.rank := by
    rw [hrank]
    split <;> omega
  have hcases : EosRound io stream copied s layout := eosRound_cases hcopied layout
  cases hcases with
  | empty hanswer hround hbuffer =>
    rw [hanswer] at ho hafter
    obtain ⟨answer, rfl, hfill⟩ := cbReadLoop_fill hround ho
    obtain ⟨incoming', harrives, rfl⟩ := EosRead.after_fill hafter
    have hshort : s.read.state.buffer.length < 5 := by
      rw [hbuffer]
      decide
    have hmore : s.incoming ≠ [] := hcopied.incoming_ne_nil (hbuffer ▸ rfl)
    have hfile : s.file ++ (none : Option EosAnswer).elim [] EosAnswer.written = s.file := List.append_nil _
    rw [hfile]
    obtain ⟨hholds, hlower⟩ := refill_holds hcopied hshort hmore hfill harrives
    exact ⟨hholds, Nat.lt_of_le_of_lt hlower.1 hmoves⟩
  | matched used hanswer hround hused hle =>
    rw [hanswer] at ho hafter
    have hbefore := hcopied.le
    have hunread := congrArg List.length hcopied.unread
    rw [List.length_append, List.length_drop] at hunread
    split at hround
    next hlong =>
      obtain ⟨rfl, rfl⟩ := cbReadLoop_ret hround ho
      cases EosRead.after_round hafter
      refine ⟨⟨fun h0 => absurd h0 (by decide), fun (h5 : stream.terminatorLen = 5) => absurd hlong (by omega)⟩, ?_⟩
      exact hmoves
    next hfits =>
      obtain ⟨rfl, rfl⟩ := cbReadLoop_ret hround ho
      cases EosRead.after_round hafter
      have hin : stream.before - copied + 5 ≤ s.read.state.buffer.length := by omega
      refine ⟨⟨fun _ => ⟨?_, by omega, ?_⟩, fun _ => rfl⟩, ?_⟩
      · have hcopy := (hcopied.handOver (Nat.le_refl _) (Nat.le_trans (Nat.le_add_right _ 5) hin)).file
        rw [Nat.add_sub_cancel' hbefore] at hcopy
        rw [← List.append_assoc, hcopy]
      · change s.read.state.buffer.drop (stream.before - copied + 5) ++ s.incoming = _
        rw [← List.drop_append_of_le_length hin, hcopied.unread, List.drop_drop]
        congr 1
        omega
      · simp only [EosRead.rank, LoopOutcome.standing, ReadState.handOver, List.length_drop]
        omega
  | moved n hanswer hround hpos hle hbuffer =>
    rw [hanswer] at ho hafter
    obtain ⟨rfl, rfl⟩ := cbReadLoop_again hround ho
    cases EosRead.after_round hafter
    refine ⟨⟨copied + n, hcopied.handOver hle hbuffer⟩, ?_⟩
    simp only [EosRead.rank, LoopOutcome.standing, ReadState.handOver, List.length_drop]
    split <;> omega
  | joins hanswer hround hpieces =>
    rw [hanswer] at ho hafter
    obtain ⟨rfl, rfl⟩ := cbReadLoop_again hround ho
    cases EosRead.after_round hafter
    refine ⟨⟨copied, hcopied.handOver (Nat.zero_le _) (Nat.zero_le _)⟩, ?_⟩
    have hfalse : s.whole = false := Bool.eq_false_iff.mpr fun hw => hpieces (hwhole hw)
    rw [hrank, hfalse]
    simp [EosRead.rank, LoopOutcome.standing, ReadState.handOver]
  | needs hanswer hround hshort hnone =>
    rw [hanswer] at ho hafter
    obtain ⟨answer, rfl, hfill⟩ := cbReadLoop_fill hround ho
    obtain ⟨incoming', harrives, rfl⟩ := EosRead.after_fill hafter
    have hkept := hcopied.handOver (Nat.zero_le _) (Nat.zero_le _)
    obtain ⟨hholds, hlower⟩ := refill_holds hkept hshort (hcopied.incoming_ne_nil hnone) hfill harrives
    exact ⟨hholds, Nat.lt_of_le_of_lt hlower.1 hmoves⟩

/-- **A resumed read keeps the outline and lowers the rank (proved).** -/
theorem eosStep_resume_holds {octets : List UInt8} (hs : EosHolds stream s) (h : eosStep io s (.resume octets) = some t) :
    EosHolds stream t ∧ t.rank < s.rank := by
  simp only [eosStep] at h
  obtain ⟨read, hstep, hafter⟩ := Option.bind_eq_some_iff.mp h
  obtain ⟨hwaiting, hmap⟩ := Option.ite_none_right_eq_some.mp hstep
  obtain ⟨o, ho, rfl⟩ := Option.map_eq_some_iff.mp hmap
  obtain ⟨hshort, hmore, copied, hcopied⟩ : s.read.state.buffer.length < 5 ∧ s.incoming ≠ [] ∧
      ∃ copied, EosCopied stream copied s.read.state s.file s.incoming := by
    unfold EosHolds at hs
    rwa [hwaiting] at hs
  have hrank : s.rank = 4 * s.read.state.buffer.length + 8 * s.incoming.length := by
    unfold EosRead.rank
    rw [hwaiting]
    rfl
  obtain ⟨incoming', harrives, rfl⟩ := EosRead.after_fill hafter
  have hfile : s.file ++ (none : Option EosAnswer).elim [] EosAnswer.written = s.file := List.append_nil _
  rw [hfile, hrank]
  obtain ⟨hholds, _, hlower⟩ := refill_holds hcopied hshort hmore ho harrives
  exact ⟨hholds, hlower octets rfl⟩

/-- **One step (proved).** -/
theorem eosStep_holds {a : EosAction} (hs : EosHolds stream s) (h : eosStep io s a = some t) :
    EosHolds stream t ∧ t.rank < s.rank := by
  cases a with
  | round layout fill => exact eosStep_round_holds hs h
  | resume octets => exact eosStep_resume_holds hs h

/-- One octet can arrive where the buffer is nearly empty. -/
theorem refill_one {state : ReadState} {incoming : List UInt8} (hshort : state.buffer.length < 5) (hmore : incoming ≠ []) :
    ∃ o octets incoming', (state.fillRecvBuffer (some (.data octets))).map refillOutcome = some o ∧
      arrives incoming (some (.data octets)) = some incoming' := by
  obtain ⟨x, rest, rfl⟩ := List.exists_cons_of_ne_nil hmore
  have hfits : [x] ≠ [] ∧ state.buffer.length + [x].length ≤ connIobSize := by
    refine ⟨List.cons_ne_nil x [], ?_⟩
    unfold connIobSize
    simp only [List.length_singleton]
    omega
  refine ⟨.again { state with buffer := state.buffer ++ [x], received := state.received ++ [x] }, [x], rest, ?_, ?_⟩
  · simp only [ReadState.fillRecvBuffer, if_pos hfits]
    rfl
  · exact if_pos ⟨rest, rfl⟩

theorem eosStep_round_of {layout : ℕ} {fill : Option (Option ReceiveAnswer)} {o : LoopOutcome Errno ReadState}
    {incoming' : List UInt8} (hrunning : s.read.phase = .running)
    (hlayout : io.ring.getUsed layout s.read.state.buffer = s.read.state.buffer.length)
    (ho : (cbReadLoop io.ring.toIOBufferLib).round s.read.state
      ⟨layout, (s.answer io layout).map fun a => (a.size, a.response), fill⟩ = some o)
    (hincoming : fill.elim (some s.incoming) (arrives s.incoming) = some incoming') :
    ∃ a t, enabled (eosStep io) s a t := by
  refine ⟨.round layout fill, ⟨o.standing, s.file ++ (s.answer io layout).elim [] EosAnswer.written, incoming',
    fill.isNone && (s.answer io layout).any fun a => a.response = .needMoreData⟩, ?_⟩
  unfold enabled eosStep
  simp only [hlayout, ne_eq, not_true_eq_false, and_false, if_false, Loop.step, hrunning, if_true, ho, Option.map_some,
    Option.bind_some, EosRead.after, hincoming]

/-- A round that needs no more octets is made. -/
theorem eosStep_goesOn {layout : ℕ} {a : EosAnswer} {next : RoundEnd × ReadState} (hrunning : s.read.phase = .running)
    (hlayout : io.ring.getUsed layout s.read.state.buffer = s.read.state.buffer.length)
    (hanswer : s.answer io layout = some a) (hnext : next.1 ≠ .fill)
    (hround : callbackRound io.ring.toIOBufferLib s.read.state layout (some (a.size, a.response)) = some next) :
    ∃ a t, enabled (eosStep io) s a t := by
  obtain ⟨o, ho⟩ : ∃ o, (cbReadLoop io.ring.toIOBufferLib).round s.read.state
      ⟨layout, (s.answer io layout).map fun a => (a.size, a.response), none⟩ = some o := by
    rw [hanswer]
    unfold cbReadLoop
    simp only [Option.map_some, hround]
    obtain ⟨ending, state⟩ := next
    cases ending with
    | again => exact ⟨_, rfl⟩
    | fill => exact absurd rfl hnext
    | ret err => exact ⟨_, rfl⟩
  exact eosStep_round_of hrunning hlayout ho rfl

/-- A round that needs more octets is made when one arrives. -/
theorem eosStep_fills {layout : ℕ} {callback : Option (ℕ × ConnIOCBResponse)} {state : ReadState}
    (hrunning : s.read.phase = .running)
    (hlayout : io.ring.getUsed layout s.read.state.buffer = s.read.state.buffer.length)
    (hcallback : (s.answer io layout).map (fun a => (a.size, a.response)) = callback)
    (hround : callbackRound io.ring.toIOBufferLib s.read.state layout callback = some (.fill, state))
    (hshort : state.buffer.length < 5) (hmore : s.incoming ≠ []) : ∃ a t, enabled (eosStep io) s a t := by
  obtain ⟨o, octets, incoming', ho, harrives⟩ := refill_one hshort hmore
  have hfill : (cbReadLoop io.ring.toIOBufferLib).round s.read.state
      ⟨layout, (s.answer io layout).map fun a => (a.size, a.response), some (some (.data octets))⟩ = some o := by
    rw [hcallback]
    unfold cbReadLoop
    simp only [hround]
    exact ho
  exact eosStep_round_of hrunning hlayout hfill harrives

/-- **A read that has not ended has a step (proved).** -/
theorem eosStep_moves (hs : EosHolds stream s) (hphase : ∀ err, s.read.phase ≠ .ended err) :
    ∃ a t, enabled (eosStep io) s a t := by
  unfold EosHolds at hs
  cases hp : s.read.phase with
  | ended err => exact absurd hp (hphase err)
  | waiting =>
    rw [hp] at hs
    obtain ⟨hshort, hmore, _⟩ := hs
    obtain ⟨o, octets, incoming', ho, harrives⟩ := refill_one hshort hmore
    refine ⟨.resume octets, ⟨o.standing, s.file ++ [], incoming', false⟩, ?_⟩
    have hresume : (cbReadLoop io.ring.toIOBufferLib).resume s.read.state (some (.data octets)) = some o := ho
    unfold enabled eosStep
    simp only [Loop.step, hp, if_true, hresume, Option.map_some, Option.bind_some, EosRead.after, Option.elim_some,
      harrives]
    rfl
  | running =>
    rw [hp] at hs
    obtain ⟨copied, hcopied⟩ := hs
    -- the pieces may always lie joined
    obtain ⟨layout, hlayout⟩ := io.ring.joined s.read.state.buffer
    have hcases : EosRound io stream copied s layout := eosRound_cases hcopied layout
    cases hcases with
    | empty hanswer hround hbuffer =>
      refine eosStep_fills hp hlayout (by rw [hanswer]; rfl) hround ?_ (hcopied.incoming_ne_nil (hbuffer ▸ rfl))
      rw [hbuffer]
      decide
    | matched used hanswer hround hused hle =>
      refine eosStep_goesOn hp hlayout hanswer ?_ hround
      split <;> simp
    | moved n hanswer hround _ _ _ => exact eosStep_goesOn hp hlayout hanswer (by simp) hround
    | joins hanswer hround _ => exact eosStep_goesOn hp hlayout hanswer (by simp) hround
    | needs hanswer hround hshort hnone =>
      exact eosStep_fills hp hlayout (by rw [hanswer]; rfl) hround hshort (hcopied.incoming_ne_nil hnone)

end Steps

section Exact

variable {io : EosIo} {stream : TerminatedStream}

theorem EosHolds.start {buffer incoming : List UInt8} (h : buffer ++ incoming = stream.octets) :
    EosHolds stream (.start buffer incoming) :=
  ⟨0, Nat.zero_le _, rfl, rfl, h⟩

/-- **Every run ends (proved).** -/
theorem eos_inevitable {s : EosRead} (hs : EosHolds stream s) :
    Inevitably (enabled (eosStep io)) (fun t => EosHolds stream t ∧ ∃ err, t.read.phase = .ended err) s := by
  refine Inevitably.of_rank EosRead.rank (fun s hs => ?_) hs
  by_cases hphase : ∃ err, s.read.phase = .ended err
  · exact Or.inl ⟨hs, hphase⟩
  · refine Or.inr ⟨eosStep_moves hs fun err herr => hphase ⟨err, herr⟩, fun a t h => eosStep_holds hs h⟩

/-- A read that ends well has taken five octets for the terminator. -/
theorem EosHolds.done {s : EosRead} (hs : EosHolds stream s) (hdone : EosDone stream s) : stream.terminatorLen = 5 := by
  unfold EosHolds at hs
  rw [hdone.ended] at hs
  have hpassed := hs.1 rfl
  have hfirst := WordSet.firstWord_le stream.first
  have hunread := congrArg List.length (hdone.unread.symm.trans hpassed.unread)
  have hle := hpassed.le
  rw [List.length_drop, List.length_drop] at hunread
  omega

/-- An exact read has met the terminator of five octets. -/
theorem EosExact.terminatorLen (h : EosExact io stream) : stream.terminatorLen = 5 := by
  obtain ⟨t, ht, hdone⟩ := (h [] stream.octets rfl (Nat.zero_le _)).reaches
  have hholds := ht.invariant (P := EosHolds stream) (.start rfl) fun _ _ _ hs _ hstep => (eosStep_holds hs hstep).1
  exact hholds.done hdone

/-- **The file writer (proved):** exact only where both line ends are `"\r\n"`. -/
theorem eosExact_iff (io : EosIo) (stream : TerminatedStream) : EosExact io stream ↔ stream.terminatorLen = 5 := by
  refine ⟨EosExact.terminatorLen, fun h5 buffer incoming heq _ => ?_⟩
  refine (eos_inevitable (.start heq)).weaken fun t ⟨hholds, err, hended⟩ => ?_
  unfold EosHolds at hholds
  rw [hended] at hholds
  obtain rfl := hholds.2 h5
  have hpassed := hholds.1 rfl
  exact ⟨hended, hpassed.file, h5 ▸ hpassed.unread⟩

end Exact

/-! ### Line feeds only -/

/-- A search that holds back four octets. -/
def plainSearch (b : List UInt8) : ℕ × Bool :=
  match terminators.firstWord b with
  | some (p, _) => (p, true)
  | none => (b.length - 4, false)

theorem plainSearch_found {b : List UInt8} {p l : ℕ} (h : terminators.firstWord b = some (p, l)) :
    plainSearch b = (p, true) := by
  simp only [plainSearch, h]

theorem plainSearch_notFound {b : List UInt8} (h : terminators.firstWord b = none) :
    ∃ n, plainSearch b = (n, false) ∧ n ≤ b.length ∧ terminators.matcher.NoneBefore b n ∧ b.length < n + 5 := by
  have hlength : ∀ w ∈ terminators.words, w.length ≤ 5 := by decide
  refine ⟨b.length - 4, ?_, Nat.sub_le _ _, WordSet.noneBefore hlength h, by omega⟩
  simp only [plainSearch, h]

def EosSearch.plain : EosSearch where
  memSearch := plainSearch
  found := plainSearch_found
  notFound := plainSearch_notFound

/-- A receive buffer whose octets lie in one piece. -/
def RingBuffer.onePiece : RingBuffer where
  toIOBufferLib := .onePiece
  defrag_iff := fun _ b => ⟨fun h => (by cases h), fun h => absurd h (Nat.lt_irrefl b.length)⟩
  joined := fun _ => ⟨0, rfl⟩

/-- The text `a`, its terminator with line feeds only, and the next command. -/
def lineFeeds : TerminatedStream where
  octets := [97, 10, 46, 10, 81, 85, 73, 84, 13, 10]
  before := 1
  terminatorLen := 3
  first := by decide

/-- **Two octets of the next command are lost.** -/
theorem eos_swallows : ¬ ∀ (io : EosIo) (stream : TerminatedStream), EosExact io stream := by
  intro h
  exact absurd (h ⟨.onePiece, .plain⟩ lineFeeds).terminatorLen (by decide)

end Connio
