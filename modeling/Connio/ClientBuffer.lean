import Connio.Lib.Resumable
import Connio.Lib.Span
import Connio.EatPeek
import Connio.WriteRuns

/-!
# The client's buffer

What the buffered reads store in the buffer of the client (`process.c`).  `clientBuffer.remaining` is an `int` here, and
each store is kept with the place it was made at, so that a read could overrun the buffer.

* `ClientBuffer`, `ClientRead` — the buffer with its stores, and a read with its buffer;
* `ClientRead.moveFinalConditionalDataToClient` ... `ClientRead.satisfyEvent` — the functions of `process.c` on it;
* `clientReadLoop` — `conditionalReadProcess` as a loop that is left and entered again;
* `ClientRead.Fits` — the stores fill the buffer up to `write`, and `remaining` is the rest;
* `satisfyEvent_fits` — **PROVED**: one look at the receive buffer keeps this, or is the last one and stays in the
  buffer; and it is what `satisfyEvent` does to the read;
* `conditionalReadProcess_client` — **PROVED**: the loop runs as the process function does;
* `clientReadLoop_inBounds` — **PROVED**: no read of the API stores anything outside.
-/

namespace Connio

open Connio.Lib

/-! ### The buffer -/

/-- `ce->clientBuffer`; `write` is the offset from the start, and `stores` what has been stored, oldest first. -/
structure ClientBuffer where
  /-- `args.buffer.size` -/
  size : Int
  remaining : Int
  write : Int
  stores : List Span
  deriving DecidableEq, Repr

namespace ClientBuffer

/-- `ConnEventAssign` -/
def assign (length : Int) : ClientBuffer where
  size := length
  remaining := length
  write := 0
  stores := []

/-- What `CopyBufferedDataToClient` does for a count that is not zero. -/
def copy (c : ClientBuffer) (count : Int) : ClientBuffer :=
  { c with
    remaining := c.remaining - count
    write := c.write + count
    stores := c.stores ++ [⟨c.write, sizeT count⟩] }

/-- What `TerminateClientBuffer` does. -/
def terminate (c : ClientBuffer) : ClientBuffer := { c with stores := c.stores ++ [⟨c.write, 1⟩] }

/-- **Nothing is stored outside the buffer,** nor more than it holds, and `remaining` is not negative. -/
structure InBounds (c : ClientBuffer) : Prop where
  total : (Span.total c.stores : Int) ≤ c.size
  within : ∀ s ∈ c.stores, s.Within c.size
  remaining : 0 ≤ c.remaining

end ClientBuffer

/-! ### The functions -/

/-- A read and the buffer it copies to. -/
structure ClientRead where
  read : ReadState
  client : ClientBuffer

namespace ClientRead

/-- `IOBMarkFree` -/
def markFree (s : ClientRead) (count : Int) : ClientRead := { s with read := s.read.markFree count.toNat }

/-- `CopyBufferedDataToClient` -/
def copyBufferedDataToClient (s : ClientRead) (buff : List UInt8) (count : Int) : ClientRead :=
  if count = 0 then s
  else { read := s.read.copyBufferedDataToClient (buff.take count.toNat), client := s.client.copy count }

/-- `TerminateClientBuffer` -/
def terminateClientBuffer (s : ClientRead) : ClientRead :=
  { read := s.read.terminateClientBuffer, client := s.client.terminate }

/-- The pattern octets after the first `dataCount` are about to be removed. -/
def removePattern (s : ClientRead) (dataCount : Int) (patternLen : ℕ) : ClientRead :=
  { s with read := s.read.removePattern dataCount.toNat patternLen }

/-- The copies of a final move with room for them: `count` octets, the pattern that replaces what was found, and the
terminator. -/
def copyFinal (s : ClientRead) (count : Int) : ClientRead :=
  let m := s.read.event.dataMode
  let pattern := s.read.event.pattern
  let s := s.copyBufferedDataToClient s.read.buffer count
  let s := if m.replacePattern then s.copyBufferedDataToClient pattern pattern.length else s
  if m.terminate then s.terminateClientBuffer else s

/-- `moveFinalConditionalDataToClient` -/
def moveFinalConditionalDataToClient (s : ClientRead) (dataCount : Int) (patternLen : ℕ) : Errno × ClientRead :=
  let m := s.read.event.dataMode
  if m.copy then
    let terminatorLen : ℕ := if m.terminate then 1 else 0
    let replacementPatternLen : ℕ := if m.replacePattern then s.read.event.pattern.length else 0
    let extraLen : ℕ := if m.replacePattern then 0 else if m.includePattern then patternLen else 0
    if s.client.remaining < dataCount + extraLen + replacementPatternLen + terminatorLen then
      let dataCount := min dataCount s.client.remaining
      let s := s.copyBufferedDataToClient s.read.buffer dataCount
      (Errno.emsgsize, if m.delete then s.markFree dataCount else s)
    else
      let s := s.copyFinal (dataCount + extraLen)
      if m.delete then
        let s := if m.includePattern ∧ m.replacePattern = false then s
          else s.removePattern dataCount patternLen
        (0, s.markFree (dataCount + patternLen))
      else (0, s)
  else if m.delete then (0, s.markFree (dataCount + patternLen))
  else (0, { s with read := { s.read with event := { s.read.event with transferred := dataCount.toNat } } })

/-- `movePartialConditionalDataToClient` -/
def movePartialConditionalDataToClient (s : ClientRead) (moveableCount : Int) : Errno × ClientRead :=
  let m := s.read.event.dataMode
  if m.delete ∧ moveableCount ≠ 0 then
    if m.copy then
      if s.client.remaining < moveableCount then
        (Errno.emsgsize,
          (s.copyBufferedDataToClient s.read.buffer s.client.remaining).markFree s.client.remaining)
      else (Errno.econnmoredata, (s.copyBufferedDataToClient s.read.buffer moveableCount).markFree moveableCount)
    else (Errno.econnmoredata, s.markFree moveableCount)
  else (Errno.econnmoredata, s)

section Process

variable (iob : IOBufferLib)

/-- `EventConditionSatisfied`: TRUE, the octets that can be moved and the length of the pattern. -/
def eventConditionSatisfied (s : ClientRead) (layout : ℕ) : Bool × Int × ℕ :=
  let e := s.read.event
  match e.type with
  | .read =>
    let count := iob.getUsed layout s.read.buffer
    if 0 < count then
      (true, if s.client.remaining ≤ (count : Int) then s.client.remaining else count, 0)
    else (false, 0, 0)
  | .readCount =>
    let count := iob.getUsed layout s.read.buffer
    if s.client.remaining ≤ (count : Int) then (true, s.client.remaining, 0) else (false, count, 0)
  | .readUntilPattern =>
    match iob.search layout (if e.pattern = specialPatternCRLF then none else some e.pattern) s.read.buffer with
    | .found count patternLen => (true, count, patternLen)
    | .notFound count => (false, count, 0)
  | _ => (false, 0, 0)

/-- The receive buffer behind `EventConditionSatisfied`. -/
def searched (s : ClientRead) (layout : ℕ) : ClientRead := { s with read := s.read.searched iob layout }

/-- `SatisfyEvent` -/
def satisfyEvent (s : ClientRead) (layout : ℕ) : Errno × ClientRead :=
  match s.eventConditionSatisfied iob layout with
  | (true, count, patternLen) => (s.searched iob layout).moveFinalConditionalDataToClient count patternLen
  | (false, count, _) => (s.searched iob layout).movePartialConditionalDataToClient count

end Process

end ClientRead

/-- What `conditionalReadProcess` does after a refill. -/
def ClientRead.refilled (iob : IOBufferLib) (s : ClientRead) (layout : ℕ) (r : Errno × SocketEventType × ReadState) :
    LoopOutcome Errno ClientRead :=
  if r.1 = 0 then .again { s with read := r.2.2 }
  else
    let failed := refillFailed iob r.2.2 layout r.1 r.2.1
    returnedOutcome failed.error failed.blockedOn { s with read := failed.state }

/-- What `socketEventProcess` does after the refill of a read that has waited. -/
def ClientRead.resumed (iob : IOBufferLib) (s : ClientRead) (layout : ℕ) (r : Errno × SocketEventType × ReadState) :
    LoopOutcome Errno ClientRead :=
  if r.1 = 0 then .again { s with read := r.2.2 }
  else
    let failed := Connio.resumeFailed iob r.2.2 layout r.1 r.2.1
    returnedOutcome failed.error failed.blockedOn { s with read := failed.state }

/-- **The rounds of `conditionalReadProcess`;** a read that has waited is entered again with a refill. -/
def clientReadLoop (iob : IOBufferLib) : Loop ClientRead ReadRound ReadResume Errno where
  round s round :=
    match s.satisfyEvent iob round.layout, round.fill with
    | (err, s'), none => if err ≠ Errno.econnmoredata then some (.ends err s') else none
    | (err, s'), some answer =>
      if err = Errno.econnmoredata then (s'.read.fillRecvBuffer answer).map (s'.refilled iob round.layout) else none
  resume s resume := (s.read.fillRecvBuffer resume.answer).map (s.resumed iob resume.layout)
  ok := 0

/-! ### What fits -/

/-- **The stores fill the buffer up to `write`, the rest of it is `remaining`,** which is what the read takes it for. -/
structure ClientRead.Fits (s : ClientRead) : Prop where
  remaining : s.client.remaining = s.read.event.remaining
  filled : Filled s.client.stores s.client.write
  size : s.client.write + s.client.remaining = s.client.size

section Moves

variable {iob : IOBufferLib} {s : ClientRead}

namespace ClientRead

theorem Fits.inBounds (h : s.Fits) : s.client.InBounds := by
  have hnonneg : 0 ≤ s.client.remaining := h.remaining ▸ Int.natCast_nonneg _
  have hsize := h.size
  refine ⟨?_, h.filled.within_of_le (by omega), hnonneg⟩
  rw [h.filled.total]
  omega

theorem copy_read (buff : List UInt8) (count : ℕ) :
    (s.copyBufferedDataToClient buff count).read = s.read.copyBufferedDataToClient (buff.take count) := by
  unfold copyBufferedDataToClient
  split
  next hzero =>
    obtain rfl : count = 0 := Int.natCast_eq_zero.mp hzero
    simp [ReadState.copyBufferedDataToClient]
  · simp only [Int.toNat_natCast]

/-- **A copy that is not longer than the rest (proved).** -/
theorem Fits.copy (h : s.Fits) {buff : List UInt8} {count : ℕ} (hbuff : count ≤ buff.length)
    (hle : (count : Int) ≤ s.client.remaining) : (s.copyBufferedDataToClient buff count).Fits := by
  unfold copyBufferedDataToClient
  split
  · exact h
  · have hremaining := h.remaining
    have hsize := h.size
    have htake : (buff.take count).length = count := List.length_take_of_le hbuff
    refine ⟨?_, ?_, ?_⟩
    · simp only [ClientBuffer.copy, ReadState.copyBufferedDataToClient, Int.toNat_natCast, htake]
      omega
    · simp only [ClientBuffer.copy, sizeT_natCast]
      exact h.filled.append count
    · simp only [ClientBuffer.copy]
      omega

theorem Fits.markFree (h : s.Fits) (count : Int) : (s.markFree count).Fits := ⟨h.remaining, h.filled, h.size⟩

/-- **A terminator that fits (proved):** it is stored behind the data. -/
theorem Fits.terminate (h : s.Fits) (hroom : 1 ≤ s.client.remaining) : s.terminateClientBuffer.client.InBounds := by
  have hsize := h.size
  have hfilled := h.filled.append 1
  have hle : s.client.write + (1 : ℕ) ≤ s.client.size := by
    push_cast
    omega
  refine ⟨?_, hfilled.within_of_le hle, Int.le_trans (by decide) hroom⟩
  change (Span.total (s.client.stores ++ [⟨s.client.write, 1⟩]) : Int) ≤ s.client.size
  rw [hfilled.total]
  exact hle

theorem copy_remaining (buff : List UInt8) (count : Int) :
    (s.copyBufferedDataToClient buff count).client.remaining = s.client.remaining - count := by
  unfold copyBufferedDataToClient
  split
  next hzero =>
    rw [hzero]
    omega
  · rfl

theorem read_ite {p : Prop} [Decidable p] (a b : ClientRead) : (if p then a else b).read = if p then a.read else b.read :=
  apply_ite ClientRead.read p a b

/-- The octets of the pattern that are removed are not the client's. -/
theorem client_removed {p : Prop} [Decidable p] (dataCount : Int) (patternLen : ℕ) (count : Int) :
    ((if p then s else s.removePattern dataCount patternLen).markFree count).client = s.client := by
  split <;> rfl

/-- **The final copies (proved):** with room for them they stay in the buffer. -/
theorem Fits.copyFinal (h : s.Fits) {count : ℕ} (hbuffer : count ≤ s.read.buffer.length)
    (hroom : (count : Int) + (if s.read.event.dataMode.replacePattern then s.read.event.pattern.length else 0 : ℕ) +
      (if s.read.event.dataMode.terminate then 1 else 0 : ℕ) ≤ s.client.remaining) :
    (s.copyFinal count).client.InBounds := by
  have h₁ := h.copy hbuffer (by omega)
  have hremaining := copy_remaining (s := s) s.read.buffer count
  unfold ClientRead.copyFinal
  dsimp only
  generalize hs₂ : (if s.read.event.dataMode.replacePattern then
    (s.copyBufferedDataToClient s.read.buffer count).copyBufferedDataToClient s.read.event.pattern
      s.read.event.pattern.length else s.copyBufferedDataToClient s.read.buffer count) = s₂
  have h₂ : s₂.Fits ∧ (if s.read.event.dataMode.terminate then 1 else 0 : ℕ) ≤ s₂.client.remaining := by
    rw [← hs₂]
    by_cases hreplace : s.read.event.dataMode.replacePattern = true
    · have hafter := copy_remaining (s := s.copyBufferedDataToClient s.read.buffer count) s.read.event.pattern
        s.read.event.pattern.length
      rw [if_pos hreplace] at hroom ⊢
      exact ⟨h₁.copy (Nat.le_refl _) (by omega), by omega⟩
    · rw [if_neg hreplace] at hroom ⊢
      exact ⟨h₁, by omega⟩
  by_cases hterminate : s.read.event.dataMode.terminate = true
  · rw [if_pos hterminate] at h₂ ⊢
    exact h₂.1.terminate h₂.2
  · rw [if_neg hterminate]
    exact h₂.1.inBounds

/-- What the final copies do to the read. -/
theorem copyFinal_read (count : ℕ) : (s.copyFinal count).read =
    let r := s.read.copyBufferedDataToClient (s.read.buffer.take count)
    let r := if s.read.event.dataMode.replacePattern then r.copyBufferedDataToClient r.event.pattern else r
    if s.read.event.dataMode.terminate then r.terminateClientBuffer else r := by
  unfold copyFinal
  simp only [read_ite, terminateClientBuffer, copy_read, List.take_length]
  rfl

/-- **The final move (proved):** what it does to the read is what the read knows, and it stays in the buffer. -/
theorem moveFinal_fits (h : s.Fits) {dataCount patternLen : ℕ} (hle : dataCount + patternLen ≤ s.read.buffer.length) :
    s.read.moveFinalConditionalDataToClient dataCount patternLen =
      ((s.moveFinalConditionalDataToClient dataCount patternLen).1,
        (s.moveFinalConditionalDataToClient dataCount patternLen).2.read) ∧
    (s.moveFinalConditionalDataToClient dataCount patternLen).2.client.InBounds := by
  have hremaining := h.remaining
  unfold moveFinalConditionalDataToClient ReadState.moveFinalConditionalDataToClient
  by_cases hcopy : s.read.event.dataMode.copy = true
  · simp only [if_pos hcopy]
    generalize hextra : (if s.read.event.dataMode.replacePattern then 0
      else if s.read.event.dataMode.includePattern then patternLen else 0) = extraLen
    have hextra_le : extraLen ≤ patternLen := by
      rw [← hextra]
      split
      · exact Nat.zero_le _
      · split
        · exact Nat.le_refl _
        · exact Nat.zero_le _
    by_cases hroom : s.read.event.remaining < dataCount + extraLen +
        (if s.read.event.dataMode.replacePattern then s.read.event.pattern.length else 0) +
        (if s.read.event.dataMode.terminate then 1 else 0)
    · have hroom' : s.client.remaining < dataCount + extraLen +
          (if s.read.event.dataMode.replacePattern then s.read.event.pattern.length else 0 : ℕ) +
          (if s.read.event.dataMode.terminate then 1 else 0 : ℕ) := by omega
      have hmin : min (dataCount : Int) s.client.remaining = (min dataCount s.read.event.remaining : ℕ) := by omega
      have hkept : (s.copyBufferedDataToClient s.read.buffer (min dataCount s.read.event.remaining : ℕ)).Fits :=
        h.copy (by omega) (by omega)
      rw [if_pos hroom, if_pos hroom', hmin]
      refine ⟨?_, ?_⟩
      · simp only [read_ite, markFree, copy_read, Int.toNat_natCast]
      · split
        · exact (hkept.markFree _).inBounds
        · exact hkept.inBounds
    · have hroom' : ¬ s.client.remaining < dataCount + extraLen +
          (if s.read.event.dataMode.replacePattern then s.read.event.pattern.length else 0 : ℕ) +
          (if s.read.event.dataMode.terminate then 1 else 0 : ℕ) := by omega
      have hbounds : (s.copyFinal (dataCount + extraLen : ℕ)).client.InBounds := h.copyFinal (by omega) (by omega)
      rw [if_neg hroom, if_neg hroom', ← Int.natCast_add dataCount extraLen, ← Int.natCast_add dataCount patternLen]
      by_cases hdelete : s.read.event.dataMode.delete = true
      · rw [if_pos hdelete, if_pos hdelete]
        refine ⟨?_, ?_⟩
        · simp only [read_ite, markFree, removePattern, copyFinal_read, Int.toNat_natCast]
        · rw [client_removed]
          exact hbounds
      · rw [if_neg hdelete, if_neg hdelete]
        refine ⟨?_, hbounds⟩
        simp only [copyFinal_read]
  · simp only [if_neg hcopy]
    by_cases hdelete : s.read.event.dataMode.delete = true
    · rw [if_pos hdelete, if_pos hdelete, ← Int.natCast_add]
      exact ⟨rfl, (h.markFree _).inBounds⟩
    · rw [if_neg hdelete, if_neg hdelete]
      exact ⟨rfl, h.inBounds⟩

/-- **A partial move (proved).** -/
theorem movePartial_fits (h : s.Fits) {moveableCount : ℕ} (hle : moveableCount ≤ s.read.buffer.length) :
    s.read.movePartialConditionalDataToClient moveableCount =
      ((s.movePartialConditionalDataToClient moveableCount).1,
        (s.movePartialConditionalDataToClient moveableCount).2.read) ∧
    (s.movePartialConditionalDataToClient moveableCount).2.Fits := by
  have hremaining := h.remaining
  unfold movePartialConditionalDataToClient ReadState.movePartialConditionalDataToClient
  by_cases hmoves : s.read.event.dataMode.delete = true ∧ moveableCount ≠ 0
  · have hmoves' : s.read.event.dataMode.delete = true ∧ (moveableCount : Int) ≠ 0 := by
      exact ⟨hmoves.1, fun h0 => hmoves.2 (Int.natCast_eq_zero.mp h0)⟩
    simp only [if_pos hmoves, if_pos hmoves']
    by_cases hcopy : s.read.event.dataMode.copy = true
    · simp only [if_pos hcopy]
      by_cases hroom : s.read.event.remaining < moveableCount
      · have hroom' : s.client.remaining < moveableCount := by omega
        rw [if_pos hroom, if_pos hroom', hremaining, Nat.min_eq_right (Nat.le_of_lt hroom)]
        refine ⟨?_, (h.copy (by omega) (by omega)).markFree _⟩
        simp only [ClientRead.markFree, copy_read, Int.toNat_natCast]
      · have hroom' : ¬ s.client.remaining < moveableCount := by omega
        rw [if_neg hroom, if_neg hroom', Nat.min_eq_left (Nat.le_of_not_lt hroom)]
        refine ⟨?_, (h.copy hle (by omega)).markFree _⟩
        simp only [ClientRead.markFree, copy_read, Int.toNat_natCast]
    · simp only [if_neg hcopy]
      exact ⟨rfl, h.markFree _⟩
  · have hmoves' : ¬ (s.read.event.dataMode.delete = true ∧ (moveableCount : Int) ≠ 0) := fun hm =>
      hmoves ⟨hm.1, fun h0 => hm.2 (Int.natCast_eq_zero.mpr h0)⟩
    rw [if_neg hmoves, if_neg hmoves']
    exact ⟨rfl, h⟩

/-- The condition is the one the read sees, as long as `remaining` is not negative. -/
theorem eventConditionSatisfied_eq (h : s.Fits) (layout : ℕ) : ∃ (satisfied : Bool) (count patternLen : ℕ),
    s.eventConditionSatisfied iob layout = (satisfied, (count : Int), patternLen) ∧
    Connio.eventConditionSatisfied iob s.read layout = (satisfied, count, patternLen) ∧
    count + patternLen ≤ s.read.buffer.length := by
  have hremaining := h.remaining
  have hused := iob.getUsed_le layout s.read.buffer
  unfold eventConditionSatisfied Connio.eventConditionSatisfied
  cases htype : s.read.event.type with
  | read =>
    simp only [htype]
    by_cases hpos : 0 < iob.getUsed layout s.read.buffer
    · refine ⟨true, min (iob.getUsed layout s.read.buffer) s.read.event.remaining, 0, ?_, ?_, by omega⟩
      · rw [if_pos hpos, hremaining]
        congr 2
        split <;> omega
      · rw [if_pos hpos]
    · refine ⟨false, 0, 0, ?_, ?_, Nat.zero_le _⟩
      · rw [if_neg hpos, Int.natCast_zero]
      · rw [if_neg hpos]
  | readCount =>
    simp only [htype]
    by_cases hfull : s.read.event.remaining ≤ iob.getUsed layout s.read.buffer
    · have hfull' : s.client.remaining ≤ (iob.getUsed layout s.read.buffer : Int) := by omega
      refine ⟨true, s.read.event.remaining, 0, ?_, ?_, by omega⟩
      · rw [if_pos hfull', hremaining]
      · rw [if_pos hfull]
    · have hfull' : ¬ s.client.remaining ≤ (iob.getUsed layout s.read.buffer : Int) := by omega
      refine ⟨false, iob.getUsed layout s.read.buffer, 0, ?_, ?_, hused⟩
      · rw [if_neg hfull']
      · rw [if_neg hfull]
  | readUntilPattern =>
    simp only [htype]
    cases hsearch : iob.search layout
        (if s.read.event.pattern = specialPatternCRLF then none else some s.read.event.pattern) s.read.buffer with
    | found count patternLen => exact ⟨true, count, patternLen, rfl, rfl, iob.search_found _ _ _ _ _ hsearch⟩
    | notFound count => exact ⟨false, count, 0, rfl, rfl, iob.search_notFound _ _ _ _ hsearch⟩
  | _ =>
    simp only [htype]
    exact ⟨false, 0, 0, rfl, rfl, Nat.zero_le _⟩

/-- **What one look at the receive buffer does (proved).** -/
structure Looked (iob : IOBufferLib) (s : ClientRead) (layout : ℕ) (r : Errno × ClientRead) : Prop where
  /-- it is what `SatisfyEvent` does to the read -/
  read : Connio.satisfyEvent iob s.read layout = (r.1, r.2.read)
  inBounds : r.2.client.InBounds
  goesOn : r.1 = Errno.econnmoredata → r.2.Fits

theorem satisfyEvent_fits (h : s.Fits) (layout : ℕ) : Looked iob s layout (s.satisfyEvent iob layout) := by
  obtain ⟨satisfied, count, patternLen, hclient, hread, hle⟩ := eventConditionSatisfied_eq h layout
  rw [satisfyEvent, searched, ReadState.searched_eq, hclient]
  cases satisfied with
  | true =>
    obtain ⟨hmove, hbounds⟩ := moveFinal_fits h hle
    have herror := (moveFinal_final (s := s.read) count patternLen).error
    rw [hmove] at herror
    refine ⟨?_, hbounds, fun hmore => ?_⟩
    · rw [Connio.satisfyEvent_eq, hread]
      exact hmove
    · rcases herror with herror | herror
      · exact absurd (hmore.symm.trans herror) (by decide)
      · exact absurd (hmore.symm.trans herror) (by decide)
  | false =>
    obtain ⟨hmove, hfits⟩ := movePartial_fits h (Nat.le_trans (Nat.le_add_right _ _) hle)
    refine ⟨?_, hfits.inBounds, fun _ => hfits⟩
    rw [Connio.satisfyEvent_eq, hread]
    exact hmove

end ClientRead

end Moves

/-! ### The runs -/

section Runs

variable {iob : IOBufferLib} {s : ClientRead}

/-- **What holds in each phase.** -/
def clientOutline : Loop.Outline ClientRead Errno where
  running := ClientRead.Fits
  waiting := ClientRead.Fits
  ended _ s := s.client.InBounds

theorem ClientRead.Fits.of_event (h : s.Fits) {r : ReadState} (hr : r.event.remaining = s.read.event.remaining) :
    ClientRead.Fits { s with read := r } :=
  ⟨h.remaining.trans (congrArg Nat.cast hr.symm), h.filled, h.size⟩

variable (iob) in
/-- A refill that fails leaves `remaining` alone. -/
theorem refillFailed_remaining (r : ReadState) (layout : ℕ) (err : Errno) (blockedOn : SocketEventType) :
    (refillFailed iob r layout err blockedOn).state.event.remaining = r.event.remaining := by
  unfold refillFailed
  split <;> rfl

variable (iob) in
theorem resumeFailed_remaining (r : ReadState) (layout : ℕ) (err : Errno) (blockedOn : SocketEventType) :
    (resumeFailed iob r layout err blockedOn).state.event.remaining = r.event.remaining := by
  unfold resumeFailed
  split <;> rfl

/-- A refill, or its failure, stores nothing. -/
theorem ClientRead.Fits.refilled (h : s.Fits) {layout : ℕ} {answer : Option ReceiveAnswer}
    {r : Errno × SocketEventType × ReadState} (hfill : s.read.fillRecvBuffer answer = some r) :
    clientOutline.Holds (s.refilled iob layout r).standing ∧ clientOutline.Holds (s.resumed iob layout r).standing := by
  have hevent : r.2.2.event.remaining = s.read.event.remaining := by rw [fillRecvBuffer_event hfill]
  unfold ClientRead.refilled ClientRead.resumed
  by_cases hok : r.1 = 0
  · rw [if_pos hok, if_pos hok]
    exact ⟨h.of_event hevent, h.of_event hevent⟩
  · rw [if_neg hok, if_neg hok]
    have hrefill := h.of_event ((refillFailed_remaining iob r.2.2 layout r.1 r.2.1).trans hevent)
    have hresume := h.of_event ((resumeFailed_remaining iob r.2.2 layout r.1 r.2.1).trans hevent)
    exact ⟨returnedOutcome_holds (fun _ => hrefill) hrefill.inBounds,
      returnedOutcome_holds (fun _ => hresume) hresume.inBounds⟩

/-- **Each round keeps the outline (proved).** -/
theorem clientReadLoop_keeps : (clientReadLoop iob).Keeps clientOutline where
  round := by
    intro s round o hs ho
    have hlooked : ClientRead.Looked iob s round.layout (s.satisfyEvent iob round.layout) :=
      ClientRead.satisfyEvent_fits hs round.layout
    unfold clientReadLoop at ho
    simp only at ho
    split at ho
    next hlook _ =>
      obtain ⟨_, heq⟩ := Option.ite_none_right_eq_some.mp ho
      cases heq
      rw [hlook] at hlooked
      exact hlooked.inBounds
    next hlook _ =>
      obtain ⟨hmore, hmap⟩ := Option.ite_none_right_eq_some.mp ho
      obtain ⟨r, hfill, rfl⟩ := Option.map_eq_some_iff.mp hmap
      rw [hlook] at hlooked
      exact ((hlooked.goesOn hmore).refilled hfill).1
  resume := by
    intro s resume o hs ho
    obtain ⟨r, hfill, rfl⟩ := Option.map_eq_some_iff.mp ho
    exact (hs.refilled hfill).2
  fail := fun s _ hs _ => hs.inBounds

/-- **A run of `conditionalReadProcess` is a run of the loop (proved):** the loop does to the read what the process
function does. -/
theorem conditionalReadProcess_client : ∀ {rounds : List ReadRound} {s : ClientRead} {r : ReadReturn}, s.Fits →
    conditionalReadProcess iob s.read rounds = some r → ∃ client,
      runFrom (clientReadLoop iob).step ⟨s, .running⟩ (rounds.map .round) =
        some (returnedOutcome r.error r.blockedOn ⟨r.state, client⟩).standing
  | [], _, _, _, h => by cases h
  | round :: rounds, s, r, hs, h => by
    have hlooked : ClientRead.Looked iob s round.layout (s.satisfyEvent iob round.layout) :=
      ClientRead.satisfyEvent_fits hs round.layout
    generalize hlook : s.satisfyEvent iob round.layout = looked at hlooked
    obtain ⟨err, s'⟩ := looked
    unfold conditionalReadProcess at h
    rw [hlooked.read] at h
    rw [List.map_cons, runFrom]
    cases hfill : round.fill with
    | none =>
      simp only [hfill] at h
      obtain ⟨⟨hends, rfl⟩, heq⟩ := Option.ite_none_right_eq_some.mp h
      cases heq
      refine ⟨s'.client, ?_⟩
      have hstep : (clientReadLoop iob).step ⟨s, .running⟩ (.round round) = some ⟨s', .ended err⟩ := by
        simp only [Loop.step, clientReadLoop, if_true, hlook, hfill, if_pos hends, Option.map_some, LoopOutcome.standing]
      rw [hstep, Option.bind_some, returnedOutcome_none]
      rfl
    | some answer =>
      simp only [hfill] at h
      obtain ⟨hmore, h⟩ := Option.ite_none_right_eq_some.mp h
      have hstep : (clientReadLoop iob).step ⟨s, .running⟩ (.round round) =
          (s'.read.fillRecvBuffer answer).map fun r => (s'.refilled iob round.layout r).standing := by
        simp only [Loop.step, clientReadLoop, if_true, hlook, hfill, if_pos hmore, Option.map_map]
        rfl
      rw [hstep]
      have hkept := hlooked.goesOn hmore
      split at h
      · cases h
      next blockedOn r' hanswer =>
        have hfits : ClientRead.Fits { s' with read := r' } := hkept.of_event (by rw [fillRecvBuffer_event hanswer])
        rw [hanswer, Option.map_some, Option.bind_some]
        exact conditionalReadProcess_client hfits h
      next err' blockedOn r' herr hanswer =>
        obtain ⟨rfl, heq⟩ := Option.ite_none_right_eq_some.mp h
        cases heq
        have hne : err' ≠ 0 := herr
        refine ⟨s'.client, ?_⟩
        rw [hanswer, Option.map_some, Option.bind_some]
        unfold ClientRead.refilled
        rw [if_neg hne]
        rfl

end Runs

/-! ### The reads of the API -/

/-- A copying read or peek that `ConnReadToCondition` or `ConnAReadToCondition` accepts. -/
structure CopyingRead where
  call : ReadCall
  api : ApiRead call
  accepted : call.accepted = true
  copies : call.dataMode.copy = true

/-- The read as it is assigned, on a conn whose receive buffer holds `buffer`. -/
def CopyingRead.start (c : CopyingRead) (buffer : List UInt8) : LoopState Errno ClientRead :=
  ⟨⟨c.call.start buffer, .assign c.call.buffSize⟩, .running⟩

theorem CopyingRead.fits (c : CopyingRead) (buffer : List UInt8) : (c.start buffer).state.Fits := by
  have hbuilds : c.call.Builds (c.call.start buffer).event := ⟨c.api, c.accepted, rfl, rfl, rfl⟩
  have htype : ¬ (c.call.type = .readToCb ∨ c.call.type = .readToConn) := by
    have hcases := hbuilds.type_cases
    rw [hbuilds.type] at hcases
    rintro (h | h) <;> rw [h] at hcases <;> simp at hcases
  have hremaining : (c.call.start buffer).event.remaining = c.call.buffSize := if_neg htype
  exact ⟨congrArg Nat.cast hremaining.symm, .nil, Int.zero_add _⟩

/-- **Every state of every run stays in the client's buffer.** -/
def StaysInBuffer (iob : IOBufferLib) (c : CopyingRead) (buffer : List UInt8) : Prop :=
  ∀ p, Reachable (enabled (clientReadLoop iob).step) (c.start buffer) p → p.state.client.InBounds

/-- **No read overruns the client's buffer (proved):** whatever arrives in which pieces, and however often the read
blocks and is resumed. -/
theorem clientReadLoop_inBounds (iob : IOBufferLib) (c : CopyingRead) (buffer : List UInt8) :
    StaysInBuffer iob c buffer := by
  intro p hp
  have hstart : clientOutline.Holds (c.start buffer) := c.fits buffer
  have hholds := Loop.run clientReadLoop_keeps hstart hp
  cases hphase : p.phase with
  | running => exact (hholds.at_running hphase).inBounds
  | waiting => exact (hholds.at_waiting hphase).inBounds
  | ended err => exact hholds.at_ended hphase

/-- A line is read into a buffer of four octets. -/
def fourOctets : CopyingRead where
  call := connReadLineEx ⟨true, 4⟩
  api := .connReadLine ⟨true, 4⟩
  accepted := by decide
  copies := rfl

/-- `a` is there and `b\n` arrives: it is stored in two pieces, with a terminator behind them, and the buffer is full. -/
theorem clientReadLoop_inBounds_line : ∃ p, runFrom (clientReadLoop .onePiece).step (fourOctets.start [97])
    [.round ⟨0, some (some (.data [98, 10]))⟩, .round ⟨0, none⟩] = some p ∧ p.phase = .ended 0 ∧
      p.state.client.stores = [⟨0, 1⟩, ⟨1, 2⟩, ⟨3, 1⟩] ∧ p.state.client.InBounds := by
  obtain ⟨p, hrun, hended, hstores⟩ : ∃ p, runFrom (clientReadLoop .onePiece).step (fourOctets.start [97])
      [.round ⟨0, some (some (.data [98, 10]))⟩, .round ⟨0, none⟩] = some p ∧ p.phase = .ended 0 ∧
        p.state.client.stores = [⟨0, 1⟩, ⟨1, 2⟩, ⟨3, 1⟩] := ⟨_, rfl, rfl, rfl⟩
  exact ⟨p, hrun, hended, hstores, clientReadLoop_inBounds .onePiece fourOctets [97] p (reachable_of_runFrom hrun)⟩

end Connio
