import Connio.FileWriterEos

/-!
# A file over a connection

A conn writes a file with `_ConnFileReader`, and the conn at the other end reads it into a file with `_ConnFileWriter`
(`callbacks.c`, with `writeFromCB` and `readToCallbackProcess` of `process.c`).

* `FileStream`, `connFileReader`, `connFileWriter` — a stream of `stdio` that is read, and the two callbacks;
* `FileTransfer`, `fileTransferStep` — the file, the sender, the octets under way, the receiver, and the copy;
* `TransferExact` — no octet is lost, added or moved, and what has been moved when one end or the other is complete;
* `Carried.step` — **PROVED**: what a step keeps, at either end;
* `fileTransfer_exact` — **PROVED**: every run is exact, however the octets are read, flushed, split and written.
-/

namespace Connio

open Connio.Lib

/-! ### The streams -/

/-- **A `FILE` that is read.** -/
structure FileStream where
  octets : List UInt8
  position : ℕ := 0
  /-- `feof` -/
  eof : Bool := false
  /-- `ferror` -/
  error : Bool := false
  position_le : position ≤ octets.length
  eof_position : eof = true → position = octets.length
  deriving DecidableEq, Repr

namespace FileStream

/-- A `FILE` that has just been opened. -/
def opened (octets : List UInt8) : FileStream where
  octets := octets
  position_le := Nat.zero_le _
  eof_position := fun heof => absurd heof Bool.false_ne_true

variable (f : FileStream)

/-- What has not been read. -/
def rest : List UInt8 := f.octets.drop f.position

/-- The next `count` octets have been read. -/
def advance (count : ℕ) : FileStream :=
  { f with
    position := min (f.position + count) f.octets.length
    position_le := Nat.min_le_right _ _
    eof_position := fun heof => by
      have := f.eof_position heof
      omega }

/-- `fread` for `size` octets: it comes to the end of the file, or stops with an error after `fails` octets. -/
def fread (size : ℕ) (fails : Option ℕ) : List UInt8 × FileStream :=
  fails.elim
    (f.rest.take size,
      { f.advance size with
        eof := f.eof || decide (f.rest.length < size)
        eof_position := fun heof => by
          have hle := f.position_le
          have hrest : f.rest.length = f.octets.length - f.position := List.length_drop
          have hend := f.eof_position
          simp only [Bool.or_eq_true, decide_eq_true_eq] at heof
          change min (f.position + size) f.octets.length = f.octets.length
          rcases heof with heof | heof
          · have := hend heof
            omega
          · omega })
    fun fails => (f.rest.take (min fails size), { f.advance (min fails size) with error := true })

/-- What `_ConnFileReader` does with a file: the octets it supplies, what it returns, and `errno`. -/
def answer (size : ℕ) (fails : Option ℕ) (errno : Errno) : (List UInt8 × ConnIOCBResponse × Errno) × FileStream :=
  match f.fread size fails with
  | (data, f) =>
    if f.eof then ((data, .done, 0), f)
    else if f.error then ((data, .error, errno), f)
    else ((data, .goOn, 0), f)

end FileStream

/-- `_ConnFileReader`; `errno` is what `fread` has left. -/
def connFileReader (fp : Option FileStream) (size : ℕ) (fails : Option ℕ) (errno : Errno) :
    (List UInt8 × ConnIOCBResponse × Errno) × Option FileStream :=
  match fp with
  | some f => ((f.answer size fails errno).1, some (f.answer size fails errno).2)
  | none => (([], .error, errno), none)

/-- `_ConnFileWriter`; `fp` says that there is a file, and `fwrite` how many octets it accepts. -/
def connFileWriter (fp : Bool) (fwrite : List UInt8 → ℕ) (buffer : List UInt8) : EosAnswer :=
  if fp ∧ 0 < min (fwrite buffer) buffer.length then
    { written := buffer.take (fwrite buffer), size := min (fwrite buffer) buffer.length, response := .goOn }
  else { written := [], size := 0, response := .error }

/-! ### The transfer -/

/-- What is transferred. -/
structure TransferJob where
  file : List UInt8
  /-- the octets in the send buffer of the sender, before the file -/
  unsent : List UInt8 := []
  /-- the octets in the receive buffer of the receiver -/
  unread : List UInt8 := []
  /-- `args.cb.count` of the sender, and of the receiver -/
  sendCount : ℕ := 0
  readCount : ℕ := 0
  deriving DecidableEq, Repr

/-- How much of the file the sender is to read. -/
def TransferJob.length (job : TransferJob) : ℕ := if job.sendCount = 0 then job.file.length else job.sendCount

/-- **The two ends, and the octets under way.** -/
structure FileTransfer where
  source : FileStream
  sender : LoopState Errno WriteCall
  /-- accepted by the transport, and not yet handed to the receiver -/
  wire : List UInt8
  receiver : LoopState Errno ReadState
  /-- the octets `fwrite` has accepted -/
  target : List UInt8

def FileTransfer.start (job : TransferJob) : FileTransfer where
  source := .opened job.file
  sender := WriteCall.start job.sendCount job.unsent
  wire := []
  receiver := cbReadStart job.readCount job.unread
  target := []

inductive FileTransferAction (t : Transport) where
  /-- a round of the sender; `fread` stops after `fails` octets and leaves `errno` -/
  | send (round : WriteCbRound t.Failure) (fails : Option ℕ) (errno : Errno)
  | sendResume
  | sendFails (code : Errno)
  /-- a round of the receiver; `fwrite` accepts no more than `accepted` octets -/
  | receive (layout accepted : ℕ) (fill : Option (Option ReceiveAnswer))
  | receiveResume (answer : Option ReceiveAnswer)
  | receiveFails (code : Errno)

/-- The calls of `SocketSend` of an action. -/
def FileTransferAction.calls {t : Transport} : FileTransferAction t → List (List (TransportAnswer t.Failure))
  | send round _ _ => round.calls
  | _ => []

/-- **`SocketSend` reports what was accepted;** over SSL, it does not fail after a short count. -/
def FileTransferAction.Reported {t : Transport} (_ : FileTransfer) (a : FileTransferAction t) : Prop :=
  ∀ call ∈ a.calls, t.Reports call

namespace FileTransfer

variable (s : FileTransfer)

/-- The sender has ended, and the receiver has been handed everything. -/
def Finished : Prop := s.wire = [] ∧ s.sender.phase.hasEnded = true

instance : Decidable s.Finished := inferInstanceAs (Decidable (_ ∧ _))

/-- The receiver sees the end of the connection after the last octet, when the sender is done with it. -/
def Sees (code : Errno) : Prop := code = Errno.econnclosedbypeer → s.Finished

instance (code : Errno) : Decidable (s.Sees code) := inferInstanceAs (Decidable (_ → _))

/-- What is still under way when the socket has answered the receiver; `none` when it cannot answer so. -/
def delivers : Option (Option ReceiveAnswer) → Option (List UInt8)
  | some (some (.data octets)) => if octets <+: s.wire then some (s.wire.drop octets.length) else none
  | some (some (.fails error _)) => if s.Sees error then some s.wire else none
  | some none | none => some s.wire

/-- A step of the sender. -/
def sent (source : FileStream) (sender : LoopState Errno WriteCall) : FileTransfer :=
  { s with
    source := source
    sender := sender
    wire := s.wire ++ sender.state.write.sent.drop s.sender.state.write.sent.length }

/-- A step of the receiver. -/
def received (written : List UInt8) (fill : Option (Option ReceiveAnswer)) (receiver : LoopState Errno ReadState) :
    Option FileTransfer :=
  (s.delivers fill).map fun wire => { s with wire := wire, receiver := receiver, target := s.target ++ written }

/-- What `_ConnFileReader` does in a round of the sender; `none` when it is not called. -/
def reads (t : Transport) (round : WriteCbRound t.Failure) (fails : Option ℕ) (errno : Errno) :
    Option ((List UInt8 × ConnIOCBResponse × Errno) × FileStream) :=
  (s.sender.state.write.asked t round).map fun size => s.source.answer size fails errno

/-- What `_ConnFileWriter` does in a round of the receiver; `none` when it is not called. -/
def writes (iob : IOBufferLib) (layout accepted : ℕ) : Option EosAnswer :=
  (s.receiver.state.offered iob layout).map fun used =>
    connFileWriter true (fun _ => accepted) (s.receiver.state.buffer.take used)

end FileTransfer

/-- **One step;** `none` when it is not enabled. -/
def fileTransferStep (t : Transport) (iob : IOBufferLib) (s : FileTransfer) : FileTransferAction t → Option FileTransfer
  | .send round fails errno =>
    if round.callback = (s.reads t round fails errno).map Prod.fst then
      ((writeLoop t).step s.sender (.round round)).map
        (s.sent ((s.reads t round fails errno).elim s.source Prod.snd))
    else none
  | .sendResume => ((writeLoop t).step s.sender (.resume ())).map (s.sent s.source)
  | .sendFails code => ((writeLoop t).step s.sender (.fail code)).map (s.sent s.source)
  | .receive layout accepted fill =>
    let answer := s.writes iob layout accepted
    ((cbReadLoop iob).step s.receiver (.round ⟨layout, answer.map fun a => (a.size, a.response), fill⟩)).bind
      (s.received (answer.elim [] EosAnswer.written) fill)
  | .receiveResume answer =>
    ((cbReadLoop iob).step s.receiver (.resume answer)).bind (s.received [] (some answer))
  | .receiveFails code =>
    if s.Sees code then ((cbReadLoop iob).step s.receiver (.fail code)).bind (s.received [] none) else none

/-- **A transfer is exact:** the copy, what is buffered at either end or under way, and the rest of the file are the
stream as it was; and what has been moved when one end or both are complete. -/
structure TransferExact (job : TransferJob) (s : FileTransfer) : Prop where
  conserved : s.target ++ s.receiver.state.buffer ++ s.wire ++ s.sender.state.write.buffer ++ s.source.rest =
    job.unread ++ job.unsent ++ job.file
  /-- the sender has read as much as it was to read, and has sent it -/
  sent : s.sender.phase = .ended 0 → s.sender.state.write.buffer = [] ∧ s.source.position = job.length
  /-- the receiver succeeds with a count only -/
  counted : s.receiver.phase = .ended 0 → 0 < job.readCount ∧ s.target.length = job.readCount ∧
    s.target <+: job.unread ++ job.unsent ++ job.file
  /-- a receiver that has come to the end of the connection has everything -/
  copied : s.sender.phase = .ended 0 → s.receiver.phase = .ended Errno.econnclosedbypeer →
    s.target = job.unread ++ job.unsent ++ job.file.take job.length

/-! ### The callbacks -/

section Callbacks

variable {f : FileStream} {size : ℕ} {fails : Option ℕ} {errno : Errno}

theorem FileStream.advance_rest (f : FileStream) (count : ℕ) : f.rest.take count ++ (f.advance count).rest = f.rest := by
  have hrest : (f.advance count).rest = f.rest.drop count := by
    change f.octets.drop (min (f.position + count) f.octets.length) = (f.octets.drop f.position).drop count
    rw [List.drop_drop]
    rcases Nat.le_total (f.position + count) f.octets.length with hle | hle
    · rw [Nat.min_eq_left hle]
    · rw [Nat.min_eq_right hle, List.drop_length, List.drop_eq_nil_of_le hle]
  rw [hrest, List.take_append_drop]

/-- **A read of a stream:** it supplies what comes next, and no more than it was asked for. -/
structure FileStream.Read (f : FileStream) (size : ℕ) (data : List UInt8) (f' : FileStream) : Prop where
  octets : f'.octets = f.octets
  rest : data ++ f'.rest = f.rest
  length_le : data.length ≤ size
  eof : f.eof = true → f'.eof = true

theorem FileStream.fread_read (f : FileStream) (size : ℕ) (fails : Option ℕ) :
    f.Read size (f.fread size fails).1 (f.fread size fails).2 := by
  cases fails with
  | none =>
    refine ⟨rfl, f.advance_rest size, List.length_take_le _ _, fun heof => ?_⟩
    change (f.eof || _) = true
    rw [heof, Bool.true_or]
  | some fails =>
    refine ⟨rfl, f.advance_rest _, ?_, fun heof => heof⟩
    exact (List.length_take_le _ _).trans (Nat.min_le_right _ _)

/-- **`_ConnFileReader` (proved):** it says that it is done exactly at the end of the file. -/
theorem FileStream.answer_spec {data : List UInt8} {response : ConnIOCBResponse} {errno' : Errno} {f' : FileStream}
    (h : f.answer size fails errno = ((data, response, errno'), f')) :
    f.Read size data f' ∧ (response = .done ↔ f'.eof = true) := by
  have hread := f.fread_read size fails
  unfold FileStream.answer at h
  simp only at h
  split at h
  next heof =>
    cases h
    exact ⟨hread, iff_of_true rfl heof⟩
  next heof =>
    split at h <;> cases h <;> exact ⟨hread, iff_of_false nofun heof⟩

/-- **`_ConnFileWriter` (proved):** it takes what it has written. -/
theorem connFileWriter_spec (fwrite : List UInt8 → ℕ) (buffer : List UInt8) :
    ∃ taken ≤ buffer.length, (connFileWriter true fwrite buffer).written = buffer.take taken ∧
      (connFileWriter true fwrite buffer).size = taken ∧
        ((connFileWriter true fwrite buffer).response = .goOn ∨ (connFileWriter true fwrite buffer).response = .error) := by
  unfold connFileWriter
  split
  · refine ⟨min (fwrite buffer) buffer.length, Nat.min_le_right _ _, ?_, rfl, .inl rfl⟩
    exact List.take_eq_take_min
  · exact ⟨0, Nat.zero_le _, rfl, rfl, .inr rfl⟩

end Callbacks

/-! ### The sender -/

section Sender

variable {t : Transport} {s s' : WriteState} {round : WriteCbRound t.Failure} {next : WriteNext}

/-- **What an answer supplies (proved),** when it is no longer than was asked for. -/
theorem answered_supplied {request : ℕ} {data : List UInt8} {response : ConnIOCBResponse} {errno : Errno}
    (hle : data.length ≤ request) (h : s.answered t.send round request data response errno = some (next, s')) :
    s'.supplied = s.supplied ++ data ∧ ∀ blockedOn, next = .ret 0 blockedOn → s.count ≠ 0 ∨ response = .done := by
  simp only [WriteState.answered, if_neg (Nat.not_lt.mpr hle)] at h
  split at h
  next hreached =>
    obtain ⟨_, _, _, _, _, _, hsupplied⟩ := finish_spec h
    exact ⟨hsupplied, fun _ _ => .inl hreached.2.1⟩
  cases response with
  | goOn =>
    cases h
    exact ⟨rfl, fun _ h0 => by cases h0⟩
  | needMoreBuffer =>
    simp only at h
    split at h
    · cases h
      exact ⟨rfl, fun _ h0 => by cases h0⟩
    · obtain ⟨f, _, hmap⟩ := Option.bind_eq_some_iff.mp h
      obtain ⟨r, hflush, heq⟩ := Option.map_eq_some_iff.mp hmap
      obtain ⟨_, _, _, hsupplied⟩ := flush_empty hflush
      cases heq
      refine ⟨hsupplied, fun blockedOn h0 => ?_⟩
      split at h0
      · cases h0
      next herr => exact absurd (WriteNext.ret.inj h0).1 herr
  | done =>
    refine ⟨?_, fun _ _ => .inr rfl⟩
    simp only at h
    split at h
    · obtain ⟨_, _, _, _, _, _, hsupplied⟩ := finish_spec h
      exact hsupplied
    · cases h
      rfl
  | error =>
    cases h
    exact ⟨rfl, fun _ h0 => absurd (WriteNext.ret.inj h0).1 (WriteState.callbackError_ne_zero errno)⟩
  | needMoreData =>
    cases h
    exact ⟨rfl, fun _ h0 => by cases h0⟩

/-- **What a round supplies (proved):** nothing without the callback; and it succeeds only when there is a count or the
callback has just said that it is done. -/
theorem round_supplied (h : s.round t.send round = some (next, s')) :
    s.asked t round = none ∧ s'.supplied = s.supplied ∧ (∀ blockedOn, next = .ret 0 blockedOn → s.count ≠ 0) ∨
      ∃ request data response errno, s.asked t round = some request ∧ round.callback = some (data, response, errno) ∧
        (data.length ≤ request → s'.supplied = s.supplied ++ data ∧
          ∀ blockedOn, next = .ret 0 blockedOn → s.count ≠ 0 ∨ response = .done) := by
  obtain ⟨bufferSpace, err, blockedOn, room, hroom, hcases⟩ := round_cases h
  obtain ⟨_, hcount, _, hsupplied⟩ := makeRoom_spec hroom
  have hsame : room.count = s.count := hcount
  rcases hcases with ⟨herr, hnone, rfl, rfl⟩ | ⟨_, hnone, hreached, hfinish⟩ | ⟨_, request, data, response, errno, hasked,
    _, hcallback, hanswered⟩
  · exact .inl ⟨hnone, hsupplied, fun _ h0 => absurd (WriteNext.ret.inj h0).1 herr⟩
  · obtain ⟨_, _, _, _, _, _, hfinished⟩ := finish_spec hfinish
    refine .inl ⟨hnone, hfinished.trans hsupplied, fun _ _ hzero => ?_⟩
    unfold WriteState.request at hreached
    rw [hsame, hzero, if_neg (not_not.mpr rfl)] at hreached
    cases hreached
  · refine .inr ⟨request, data, response, errno, hasked, hcallback, fun hle => ?_⟩
    obtain ⟨hdata, hzero⟩ := answered_supplied hle hanswered
    refine ⟨hdata.trans (congrArg (· ++ data) hsupplied), fun blockedOn h0 => ?_⟩
    rw [← hsame]
    exact hzero blockedOn h0

/-- **The sender so far:** what it has been supplied is the start of the file, and nothing of it is lost. -/
structure Sending (job : TransferJob) (source : FileStream) (p : LoopState Errno WriteCall) : Prop where
  octets : source.octets = job.file
  supplied : p.state.write.supplied ++ source.rest = job.file
  kept : p.state.write.sent ++ p.state.write.buffer = job.unsent ++ p.state.write.supplied
  /-- without a count, it has none until the callback says that it is done -/
  unlimited : job.sendCount = 0 → Loop.Outline.Holds ⟨Unlimited, Unlimited, fun _ => Unlimited⟩ p
  done : p.state.done = true → source.eof = true
  counted : 0 < job.sendCount → (countedWriteOutline job.sendCount).Holds p
  ended : p.phase = .ended 0 → p.state.write.buffer = [] ∧ (job.sendCount = 0 → p.state.done = true)

variable {job : TransferJob} {source : FileStream} {p p' : LoopState Errno WriteCall}

theorem Sending.start (job : TransferJob) :
    Sending job (.opened job.file) (WriteCall.start job.sendCount job.unsent) where
  octets := rfl
  supplied := rfl
  kept := (List.append_nil _).symm
  unlimited h _ := h
  done h := absurd h Bool.false_ne_true
  counted _ := ⟨rfl, Nat.zero_le _, rfl⟩
  ended h := nomatch h

/-- The sender waits, or goes on after it: the state is the same. -/
theorem Sending.keep (h : Sending job source p) {a : LoopAction (WriteCbRound t.Failure) Unit Errno}
    (hstep : (writeLoop t).step p a = some p') (hstate : p'.state = p.state) (hphase : p'.phase ≠ .ended 0) :
    Sending job source p' where
  octets := h.octets
  supplied := by
    rw [hstate]
    exact h.supplied
  kept := by
    rw [hstate]
    exact h.kept
  unlimited hzero := unlimited_kept.step (h.unlimited hzero) hstep
  done := by
    rw [hstate]
    exact h.done
  counted hpos := (writeLoop_counted hpos).step (h.counted hpos) hstep
  ended h0 := absurd h0 hphase

/-- Without a count the callback has said that it is done before there is one. -/
theorem Sending.done_of_count (h : Sending job source p) (hzero : job.sendCount = 0) (hcount : p.state.write.count ≠ 0) :
    p.state.done = true := by
  have hunlimited := h.unlimited hzero
  unfold Loop.Outline.Holds at hunlimited
  by_contra hdone
  have hnot : p.state.done = false := Bool.eq_false_iff.mpr hdone
  split at hunlimited <;> exact hcount (hunlimited hnot)

/-- A round that ends the event returns the code. -/
theorem outcome_ended {σ : Type} {c : σ} {err : Errno} (h : (next.outcome c).standing.phase = .ended err) :
    ∃ blockedOn, next = .ret err blockedOn := by
  cases next with
  | again => cases h
  | ret err' blockedOn =>
    rcases returnedOutcome_phase err' blockedOn c with ⟨_, hwaiting⟩ | hended
    · exact nomatch hwaiting.symm.trans h
    · cases hended.symm.trans h
      exact ⟨blockedOn, rfl⟩

/-- A round of the sender, from what it does to the octets and how it ends. -/
theorem Sending.after (h : Sending job source p) {source' : FileStream} (data : List UInt8)
    (hreports : ∀ call ∈ round.calls, t.Reports call) (hstep : (writeLoop t).step p (.round round) = some p')
    (hread : source'.octets = source.octets ∧ data ++ source'.rest = source.rest)
    (hdata : p'.state.write.supplied = p.state.write.supplied ++ data)
    (hdone : p'.state.done = true → source'.eof = true)
    (hended : p'.phase = .ended 0 → p.state.write.count ≠ 0 ∨ p'.state.done = true) :
    Sending job source' p' ∧ p.state.write.sent <+: p'.state.write.sent := by
  have hunlimited := fun hzero => unlimited_kept.step (h.unlimited hzero) hstep
  have hcounted := fun hpos => (writeLoop_counted hpos).step (h.counted hpos) hstep
  obtain ⟨_, o, ho, rfl⟩ := Loop.step_round hstep
  obtain ⟨⟨next, write⟩, hround, rfl⟩ := Option.map_eq_some_iff.mp ho
  have hok := WriteState.round_ok t.send_reports hround
  have hkept := hok.kept hreports
  obtain ⟨data', hsupplied, hsent⟩ := hkept.octets
  rw [outcome_state] at hdata hdone ⊢
  have hsame : write.supplied = p.state.write.supplied ++ data := hdata
  obtain rfl : data' = data := List.append_cancel_left (hsupplied.symm.trans hsame)
  refine ⟨⟨hread.1.trans h.octets, ?_, ?_, hunlimited, ?_, hcounted, fun h0 => ?_⟩, hkept.sent⟩
  · rw [outcome_state, hsame, List.append_assoc, hread.2]
    exact h.supplied
  · rw [outcome_state]
    change write.sent ++ write.buffer = job.unsent ++ write.supplied
    rw [hsent, h.kept, hsame, List.append_assoc]
  · rw [outcome_state]
    exact hdone
  · rw [outcome_state]
    refine ⟨?_, fun hzero => ?_⟩
    · obtain ⟨blockedOn, hnext⟩ := outcome_ended h0
      exact hok.empty blockedOn hnext
    · rcases hended h0 with hcount | hdone'
      · change (p.state.done || _) = true
        rw [h.done_of_count hzero hcount, Bool.true_or]
      · rwa [outcome_state] at hdone'

/-- **A round of the sender (proved),** whose callback is `_ConnFileReader`. -/
theorem Sending.write (h : Sending job source p) {fails : Option ℕ} {errno : Errno}
    (hcall : round.callback =
      ((p.state.write.asked t round).map fun size => source.answer size fails errno).map Prod.fst)
    (hreports : ∀ call ∈ round.calls, t.Reports call) (hstep : (writeLoop t).step p (.round round) = some p') :
    Sending job (((p.state.write.asked t round).map fun size => source.answer size fails errno).elim source Prod.snd) p' ∧
      p.state.write.sent <+: p'.state.write.sent := by
  have hafter := hstep
  obtain ⟨_, o, ho, rfl⟩ := Loop.step_round hafter
  obtain ⟨⟨next, write⟩, hround, rfl⟩ := Option.map_eq_some_iff.mp ho
  rcases round_supplied hround with ⟨hnone, hsupplied, hzero⟩ | ⟨request, data, response, errno', hasked, hcallback, hdata⟩
  · rw [hnone]
    refine h.after [] hreports hstep ⟨rfl, rfl⟩ ?_ ?_ fun h0 => ?_
    · rw [outcome_state, List.append_nil]
      exact hsupplied
    · rw [outcome_state]
      change (p.state.done || p.state.write.saysDone t round) = true → _
      rw [WriteState.saysDone, hnone, Option.isSome_none, Bool.false_and, Bool.or_false]
      exact h.done
    · obtain ⟨blockedOn, hnext⟩ := outcome_ended h0
      exact .inl (hzero blockedOn hnext)
  · rw [hasked, hcallback] at hcall
    have hanswer : source.answer request fails errno =
        ((data, response, errno'), (source.answer request fails errno).2) := Prod.ext (Option.some.inj hcall).symm rfl
    obtain ⟨hread, hsays⟩ := FileStream.answer_spec hanswer
    obtain ⟨hsupplied, hzero⟩ := hdata hread.length_le
    have hdecides : p.state.write.saysDone t round = decide (response = .done) := by
      rw [WriteState.saysDone, hasked, hcallback, Option.isSome_some, Bool.true_and, Option.any_some]
    rw [hasked]
    refine h.after data hreports hstep ⟨hread.octets, hread.rest⟩ ?_ ?_ fun h0 => ?_
    · rw [outcome_state]
      exact hsupplied
    · rw [outcome_state]
      intro hdone
      rcases Bool.or_eq_true_iff.mp hdone with hbefore | hnow
      · exact hread.eof (h.done hbefore)
      · exact hsays.mp (of_decide_eq_true (hdecides.symm.trans hnow))
    · obtain ⟨blockedOn, hnext⟩ := outcome_ended h0
      refine (hzero blockedOn hnext).imp id fun hdone => ?_
      rw [outcome_state]
      change (p.state.done || p.state.write.saysDone t round) = true
      rw [hdecides, decide_eq_true hdone, Bool.or_true]

end Sender

/-! ### The receiver -/

section Receiver

variable {iob : IOBufferLib} {s : ReadState} {layout accepted : ℕ}

/-- What a round up to the refill does, when the callback is `_ConnFileWriter`. -/
inductive WriterRound (iob : IOBufferLib) (s : ReadState) (layout : ℕ) : Option EosAnswer → Prop
  | empty
      (round : callbackRound iob s layout none = some (.fill, s))
      (buffer : s.buffer = []) : WriterRound iob s layout none
  | reached
      (round : callbackRound iob s layout none = some (.ret 0, s))
      (count : s.event.count ≠ 0) : WriterRound iob s layout none
  | moved
      (answer : EosAnswer) (next : RoundEnd)
      (round : callbackRound iob s layout (some (answer.size, answer.response)) = some (next, s.handOver answer.size))
      (le : answer.size ≤ s.buffer.length)
      (written : answer.written = s.buffer.take answer.size)
      (ends : next = .again ∨ next = .ret 0 ∧ s.event.count ≠ 0 ∨ next = .ret Errno.eio) :
      WriterRound iob s layout (some answer)

/-- **The cases of a round (proved).** -/
theorem writerRound_cases (iob : IOBufferLib) (s : ReadState) (layout accepted : ℕ) :
    WriterRound iob s layout ((s.offered iob layout).map fun used =>
      connFileWriter true (fun _ => accepted) (s.buffer.take used)) := by
  have hused := iob.getUsed_le layout s.buffer
  unfold ReadState.offered
  by_cases hzero : iob.getUsed layout s.buffer = 0
  · have hbuffer : s.buffer = [] := by
      by_contra hne
      have := iob.getUsed_pos layout _ hne
      omega
    rw [if_pos hzero]
    refine .empty ?_ hbuffer
    simp only [callbackRound, if_pos hzero]
  rw [if_neg hzero]
  cases hoffer : callbackOffer s (iob.getUsed layout s.buffer) with
  | none =>
    refine .reached ?_ fun hcount => ?_
    · simp only [callbackRound, if_neg hzero, hoffer, if_true]
    · rw [callbackOffer, if_neg (not_not.mpr hcount)] at hoffer
      cases hoffer
  | some used =>
    obtain ⟨taken, htaken, hwritten, hsize, hresponse⟩ := connFileWriter_spec (fun _ => accepted) (s.buffer.take used)
    have hle := (callbackOffer_le hoffer).trans hused
    rw [List.length_take_of_le hle] at htaken
    rw [List.take_take, Nat.min_eq_left htaken] at hwritten
    rw [Option.map_some]
    generalize connFileWriter true (fun _ => accepted) (s.buffer.take used) = answer at hwritten hsize hresponse
    subst hsize
    have hround : callbackRound iob s layout (some (answer.size, answer.response)) =
        some (callbackAnswered iob s layout used answer.size answer.response) := by
      simp only [callbackRound, if_neg hzero, hoffer, Option.map_some]
    simp only [callbackAnswered, if_neg (Nat.not_lt.mpr htaken)] at hround
    split at hround
    next hreached => exact .moved answer _ hround (htaken.trans hle) hwritten (.inr (.inl ⟨rfl, hreached.2.1⟩))
    · rcases hresponse with hgo | herr
      · refine .moved answer .again ?_ (htaken.trans hle) hwritten (.inl rfl)
        rw [hround, hgo]
      · refine .moved answer (.ret Errno.eio) ?_ (htaken.trans hle) hwritten (.inr (.inr rfl))
        rw [hround, herr]

/-- **A refill (proved):** what the socket hands over leaves the wire, or the read returns. -/
theorem refill_delivers {x : FileTransfer} {answer : Option ReceiveAnswer} {wire : List UInt8}
    {o : LoopOutcome Errno ReadState} (ho : (s.fillRecvBuffer answer).map refillOutcome = some o)
    (hwire : x.delivers (some answer) = some wire) :
    (∃ octets, o = .again { s with buffer := s.buffer ++ octets, received := s.received ++ octets } ∧
      octets ++ wire = x.wire) ∨
    ∃ err blockedOn, o = returnedOutcome err blockedOn s ∧ err ≠ 0 ∧ wire = x.wire ∧ x.Sees err := by
  obtain ⟨⟨err, blockedOn, s'⟩, hfill, rfl⟩ := Option.map_eq_some_iff.mp ho
  cases answer with
  | none =>
    right
    simp only [ReadState.fillRecvBuffer] at hfill
    split at hfill <;> cases hfill
    cases hwire
    exact ⟨Errno.enobufs, .none, if_neg (show Errno.enobufs ≠ 0 by decide), by decide, rfl, fun h => absurd h (by decide)⟩
  | some answer =>
    cases answer with
    | data octets =>
      left
      simp only [ReadState.fillRecvBuffer] at hfill
      split at hfill <;> cases hfill
      obtain ⟨hcarried, heq⟩ := Option.ite_none_right_eq_some.mp hwire
      cases heq
      refine ⟨octets, rfl, ?_⟩
      obtain ⟨rest, hrest⟩ := hcarried
      rw [← hrest, List.drop_left]
    | fails error on =>
      right
      simp only [ReadState.fillRecvBuffer] at hfill
      obtain ⟨⟨_, hcode⟩, heq⟩ := Option.ite_none_right_eq_some.mp hfill
      cases heq
      obtain ⟨hsees, heq⟩ := Option.ite_none_right_eq_some.mp hwire
      cases heq
      have hne : err ≠ 0 := fun h0 => hcode (h0 ▸ List.mem_cons_self)
      exact ⟨err, blockedOn, if_neg hne, hne, rfl, hsees⟩

/-- **What has been received is the copy and what is in the buffer.** -/
structure Copies (job : TransferJob) (target : List UInt8) (s : ReadState) : Prop where
  count : s.event.count = job.readCount
  delivered : s.event.delivered = target
  received : s.received = target ++ s.buffer

/-- A receiver waits with an empty buffer; and so it is at the end of the connection. -/
def copyOutline (job : TransferJob) (target : List UInt8) : Loop.Outline ReadState Errno where
  running := Copies job target
  waiting s := Copies job target s ∧ s.buffer = []
  ended code s := Copies job target s ∧ (code = 0 → 0 < job.readCount) ∧ (code = Errno.econnclosedbypeer → s.buffer = [])

/-- **A step of the receiver:** the octets it is handed leave the wire, and the sender stays as it is. -/
structure ReceiverMoved (job : TransferJob) (iob : IOBufferLib) (x y : FileTransfer) : Prop where
  copies : (copyOutline job y.target).Holds y.receiver
  wire : y.receiver.state.received ++ y.wire = x.receiver.state.received ++ x.wire
  sees : y.receiver.phase = .ended Errno.econnclosedbypeer → x.Finished ∧ y.wire = x.wire
  source : y.source = x.source
  sender : y.sender = x.sender
  step : ∃ a, (cbReadLoop iob).step x.receiver a = some y.receiver

variable {job : TransferJob} {target : List UInt8} {x y : FileTransfer}

theorem Copies.handOver (h : Copies job target s) (taken : ℕ) :
    Copies job (target ++ s.buffer.take taken) (s.handOver taken) := by
  refine ⟨h.count, congrArg (· ++ _) h.delivered, ?_⟩
  change s.received = target ++ s.buffer.take taken ++ s.buffer.drop taken
  rw [List.append_assoc, List.take_append_drop]
  exact h.received

/-- **A refill of an empty buffer (proved).** -/
theorem Copies.refill (h : Copies job target s) (hempty : s.buffer = []) {answer : Option ReceiveAnswer}
    {wire : List UInt8} {o : LoopOutcome Errno ReadState} (ho : (s.fillRecvBuffer answer).map refillOutcome = some o)
    (hwire : x.delivers (some answer) = some wire) :
    (copyOutline job target).Holds o.standing ∧ o.standing.state.received ++ wire = s.received ++ x.wire ∧
      (o.standing.phase = .ended Errno.econnclosedbypeer → x.Finished ∧ wire = x.wire) := by
  rcases refill_delivers ho hwire with ⟨octets, rfl, hoctets⟩ | ⟨err, blockedOn, rfl, hne, rfl, hsees⟩
  · refine ⟨⟨h.count, h.delivered, ?_⟩, ?_, nofun⟩
    · change s.received ++ octets = target ++ (s.buffer ++ octets)
      rw [h.received, List.append_assoc]
    · change s.received ++ octets ++ wire = s.received ++ x.wire
      rw [List.append_assoc, hoctets]
  · refine ⟨?_, ?_, fun hended => ?_⟩
    · exact returnedOutcome_holds (fun _ => ⟨h, hempty⟩) ⟨h, fun h0 => absurd h0 hne, fun _ => hempty⟩
    · rw [returnedOutcome_state]
    · rcases returnedOutcome_phase err blockedOn s with ⟨_, hwaiting⟩ | hcode
      · exact nomatch hwaiting.symm.trans hended
      · cases hcode.symm.trans hended
        exact ⟨hsees rfl, rfl⟩

/-- **A round of the receiver (proved),** whose callback is `_ConnFileWriter`. -/
theorem ReceiverMoved.round {t : Transport} (h : (copyOutline job x.target).Holds x.receiver)
    {fill : Option (Option ReceiveAnswer)}
    (hstep : fileTransferStep t iob x (.receive layout accepted fill) = some y) : ReceiverMoved job iob x y := by
  obtain ⟨receiver, hreceiver, hreceived⟩ := Option.bind_eq_some_iff.mp hstep
  obtain ⟨wire, hwire, rfl⟩ := Option.map_eq_some_iff.mp hreceived
  have hloop := hreceiver
  obtain ⟨hrunning, o, ho, rfl⟩ := Loop.step_round hreceiver
  have hcopies : Copies job x.target x.receiver.state := h.at_running hrunning
  have hcases := writerRound_cases iob x.receiver.state layout accepted
  suffices (copyOutline job (x.target ++ (x.writes iob layout accepted).elim [] EosAnswer.written)).Holds o.standing ∧
      o.standing.state.received ++ wire = x.receiver.state.received ++ x.wire ∧
        (o.standing.phase = .ended Errno.econnclosedbypeer → x.Finished ∧ wire = x.wire) from
    ⟨this.1, this.2.1, this.2.2, rfl, rfl, _, hloop⟩
  unfold FileTransfer.writes at ho ⊢
  generalize (x.receiver.state.offered iob layout).map _ = answer at hcases ho
  cases hcases with
  | empty hround hbuffer =>
    obtain ⟨answer, rfl, hfill⟩ := cbReadLoop_fill hround ho
    rw [Option.elim_none, List.append_nil]
    exact hcopies.refill hbuffer hfill hwire
  | reached hround hcount =>
    obtain ⟨rfl, rfl⟩ := cbReadLoop_ret hround ho
    cases hwire
    refine ⟨⟨?_, fun _ => ?_, nofun⟩, rfl, nofun⟩
    · rw [Option.elim_none, List.append_nil]
      exact hcopies
    · rw [hcopies.count] at hcount
      omega
  | moved answer next hround hle hwritten hends =>
    have hmoved : Copies job (x.target ++ answer.written) (x.receiver.state.handOver answer.size) := by
      rw [hwritten]
      exact hcopies.handOver answer.size
    rcases hends with rfl | ⟨rfl, hcount⟩ | rfl
    · obtain ⟨rfl, rfl⟩ := cbReadLoop_again hround ho
      cases hwire
      exact ⟨hmoved, rfl, nofun⟩
    · obtain ⟨rfl, rfl⟩ := cbReadLoop_ret hround ho
      cases hwire
      rw [hcopies.count] at hcount
      exact ⟨⟨hmoved, fun _ => by omega, nofun⟩, rfl, nofun⟩
    · obtain ⟨rfl, rfl⟩ := cbReadLoop_ret hround ho
      cases hwire
      exact ⟨⟨hmoved, nofun, nofun⟩, rfl, nofun⟩

theorem ReceiverMoved.resume {t : Transport} (h : (copyOutline job x.target).Holds x.receiver)
    {answer : Option ReceiveAnswer} (hstep : fileTransferStep t iob x (.receiveResume answer) = some y) :
    ReceiverMoved job iob x y := by
  obtain ⟨receiver, hreceiver, hreceived⟩ := Option.bind_eq_some_iff.mp hstep
  obtain ⟨wire, hwire, rfl⟩ := Option.map_eq_some_iff.mp hreceived
  have hloop := hreceiver
  obtain ⟨hwaiting, hmap⟩ := Option.ite_none_right_eq_some.mp hreceiver
  obtain ⟨o, ho, rfl⟩ := Option.map_eq_some_iff.mp hmap
  obtain ⟨hcopies, hempty⟩ : Copies job x.target x.receiver.state ∧ _ := h.at_waiting hwaiting
  obtain ⟨houtline, hmoved, hsees⟩ := hcopies.refill hempty ho hwire
  refine ⟨?_, hmoved, hsees, rfl, rfl, _, hloop⟩
  rw [List.append_nil]
  exact houtline

theorem ReceiverMoved.fails {t : Transport} (h : (copyOutline job x.target).Holds x.receiver) {code : Errno}
    (hstep : fileTransferStep t iob x (.receiveFails code) = some y) : ReceiverMoved job iob x y := by
  obtain ⟨hsees, hbind⟩ := Option.ite_none_right_eq_some.mp hstep
  obtain ⟨receiver, hreceiver, hreceived⟩ := Option.bind_eq_some_iff.mp hbind
  obtain ⟨wire, hwire, rfl⟩ := Option.map_eq_some_iff.mp hreceived
  cases hwire
  have hloop := hreceiver
  obtain ⟨⟨hwaiting, hcode⟩, heq⟩ := Option.ite_none_right_eq_some.mp hreceiver
  cases heq
  obtain ⟨hcopies, hempty⟩ : Copies job x.target x.receiver.state ∧ _ := h.at_waiting hwaiting
  refine ⟨?_, rfl, fun hended => ⟨hsees (LoopPhase.ended.inj hended), rfl⟩, rfl, rfl, _, hloop⟩
  rw [List.append_nil]
  exact ⟨hcopies, fun h0 => absurd h0 hcode, fun _ => hempty⟩

end Receiver

/-! ### The transfer, step by step -/

section Transfer

variable {t : Transport} {iob : IOBufferLib} {job : TransferJob} {s s' : FileTransfer}

/-- **What holds in every run:** both ends are as they should be, and the wire has what lies between them. -/
structure Carried (job : TransferJob) (s : FileTransfer) : Prop where
  sending : Sending job s.source s.sender
  copies : (copyOutline job s.target).Holds s.receiver
  counted : 0 < job.readCount → (countedOutline job.readCount).Holds s.receiver
  wire : s.receiver.state.received ++ s.wire = job.unread ++ s.sender.state.write.sent
  sees : s.receiver.phase = .ended Errno.econnclosedbypeer → s.Finished

theorem Carried.start (job : TransferJob) : Carried job (.start job) where
  sending := .start job
  copies := ⟨rfl, rfl, rfl⟩
  counted _ := CountedRead.start .readToCb (.inl rfl) job.readCount job.unread
  wire := rfl
  sees h := nomatch h

/-- A step of the sender, while it has not ended. -/
theorem Carried.sent (h : Carried job s) {source : FileStream} {sender : LoopState Errno WriteCall}
    (hopen : ∀ code, s.sender.phase ≠ .ended code) (hsending : Sending job source sender)
    (hsent : s.sender.state.write.sent <+: sender.state.write.sent) : Carried job (s.sent source sender) where
  sending := hsending
  copies := h.copies
  counted := h.counted
  wire := by
    obtain ⟨octets, hoctets⟩ := hsent
    change s.receiver.state.received ++ (s.wire ++ sender.state.write.sent.drop s.sender.state.write.sent.length) =
      job.unread ++ sender.state.write.sent
    rw [← hoctets, List.drop_left, ← List.append_assoc, h.wire, List.append_assoc]
  sees hended := by
    have hfinished := (h.sees hended).2
    cases hphase : s.sender.phase with
    | ended code => exact absurd hphase (hopen code)
    | running =>
      rw [hphase] at hfinished
      cases hfinished
    | waiting =>
      rw [hphase] at hfinished
      cases hfinished

/-- A step of the receiver. -/
theorem Carried.received (h : Carried job s) (hmoved : ReceiverMoved job iob s s') : Carried job s' where
  sending := by
    rw [hmoved.source, hmoved.sender]
    exact h.sending
  copies := hmoved.copies
  counted hpos := by
    obtain ⟨a, ha⟩ := hmoved.step
    exact (cbReadLoop_counted hpos).step (h.counted hpos) ha
  wire := by
    rw [hmoved.wire, hmoved.sender]
    exact h.wire
  sees hended := by
    obtain ⟨⟨hempty, hsender⟩, hwire⟩ := hmoved.sees hended
    exact ⟨hwire.trans hempty, hmoved.sender ▸ hsender⟩

/-- **One step keeps it (proved).** -/
theorem Carried.step (h : Carried job s) {a : FileTransferAction t} (hreported : a.Reported s)
    (hstep : fileTransferStep t iob s a = some s') : Carried job s' := by
  cases a with
  | send round fails errno =>
    obtain ⟨hcall, hmap⟩ := Option.ite_none_right_eq_some.mp hstep
    obtain ⟨sender, hsender, rfl⟩ := Option.map_eq_some_iff.mp hmap
    obtain ⟨hsending, hsent⟩ := h.sending.write hcall hreported hsender
    exact h.sent (Loop.step_not_ended hsender) hsending hsent
  | sendResume =>
    obtain ⟨sender, hsender, rfl⟩ := Option.map_eq_some_iff.mp hstep
    have hopen := Loop.step_not_ended hsender
    obtain ⟨_, hmap⟩ := Option.ite_none_right_eq_some.mp hsender
    cases hmap
    exact h.sent hopen (h.sending.keep hsender rfl nofun) List.prefix_rfl
  | sendFails code =>
    obtain ⟨sender, hsender, rfl⟩ := Option.map_eq_some_iff.mp hstep
    have hopen := Loop.step_not_ended hsender
    obtain ⟨⟨_, hcode⟩, heq⟩ := Option.ite_none_right_eq_some.mp hsender
    cases heq
    exact h.sent hopen (h.sending.keep hsender rfl fun h0 => hcode (LoopPhase.ended.inj h0)) List.prefix_rfl
  | receive => exact h.received (.round h.copies hstep)
  | receiveResume => exact h.received (.resume h.copies hstep)
  | receiveFails => exact h.received (.fails h.copies hstep)

/-- The copy in every phase. -/
theorem Carried.copied (h : Carried job s) : Copies job s.target s.receiver.state := by
  cases hphase : s.receiver.phase with
  | running => exact h.copies.at_running hphase
  | waiting => exact (h.copies.at_waiting hphase).1
  | ended code => exact (h.copies.at_ended hphase).1

/-- **Nothing is lost (proved).** -/
theorem Carried.conserved (h : Carried job s) :
    s.target ++ s.receiver.state.buffer ++ s.wire ++ s.sender.state.write.buffer ++ s.source.rest =
      job.unread ++ job.unsent ++ job.file := by
  calc s.target ++ s.receiver.state.buffer ++ s.wire ++ s.sender.state.write.buffer ++ s.source.rest
      = job.unread ++ (s.sender.state.write.sent ++ s.sender.state.write.buffer) ++ s.source.rest := by
        rw [← h.copied.received, h.wire, List.append_assoc job.unread]
    _ = job.unread ++ job.unsent ++ (s.sender.state.write.supplied ++ s.source.rest) := by
        rw [h.sending.kept]
        simp only [List.append_assoc]
    _ = job.unread ++ job.unsent ++ job.file := by rw [h.sending.supplied]

/-- What has been supplied is what has been read. -/
theorem Carried.position (h : Carried job s) :
    s.sender.state.write.supplied = job.file.take s.source.position ∧
      s.sender.state.write.supplied.length = s.source.position := by
  have hrest : s.source.rest = job.file.drop s.source.position := congrArg (List.drop _) h.sending.octets
  have hsupplied := h.sending.supplied
  rw [hrest] at hsupplied
  have htake : s.sender.state.write.supplied = job.file.take s.source.position :=
    List.append_cancel_right (hsupplied.trans (List.take_append_drop _ _).symm)
  refine ⟨htake, ?_⟩
  rw [htake, List.length_take_of_le]
  rw [← h.sending.octets]
  exact s.source.position_le

/-- **A sender that succeeds (proved)** has read as much as it was to read. -/
theorem Carried.sender_done (h : Carried job s) (hended : s.sender.phase = .ended 0) :
    s.sender.state.write.buffer = [] ∧ s.source.position = job.length := by
  obtain ⟨hempty, hdone⟩ := h.sending.ended hended
  refine ⟨hempty, ?_⟩
  unfold TransferJob.length
  split
  next hzero =>
    rw [s.source.eof_position (h.sending.done (hdone hzero)), h.sending.octets]
  next hcount =>
    obtain ⟨hcounted, hcomplete⟩ := (h.sending.counted (Nat.pos_of_ne_zero hcount)).at_ended hended
    rw [← h.position.2, hcounted.supplied, (hcomplete rfl).1]

/-- **Every run of a transfer is exact (proved).** -/
theorem fileTransfer_exact (t : Transport) (iob : IOBufferLib) (job : TransferJob) (s : FileTransfer)
    (h : ReachableVia (enabled (fileTransferStep t iob)) FileTransferAction.Reported (.start job) s) :
    TransferExact job s := by
  have hcarried : Carried job s := h.invariant (.start job) fun _ _ _ hs hok hstep => hs.step hok hstep
  refine ⟨hcarried.conserved, hcarried.sender_done, fun hended => ?_, fun hsender hreceiver => ?_⟩
  · have hpos := (hcarried.copies.at_ended hended).2.1 rfl
    obtain ⟨hread, hall⟩ := (hcarried.counted hpos).at_ended hended
    refine ⟨hpos, ?_, ?_⟩
    · have hlength := congrArg List.length hread.delivered
      rw [hcarried.copied.delivered, hall rfl, List.length_take] at hlength
      have hle := hread.received_le
      rw [hall rfl] at hle
      omega
    · rw [← hcarried.conserved]
      simp only [List.append_assoc]
      exact List.prefix_append _ _
  · have hbuffer := (hcarried.copies.at_ended hreceiver).2.2 rfl
    obtain ⟨hwire, _⟩ := hcarried.sees hreceiver
    obtain ⟨hsent, hposition⟩ := hcarried.sender_done hsender
    have hreceived := hcarried.copied.received
    rw [hbuffer, List.append_nil] at hreceived
    have hcarries := hcarried.wire
    have hkept := hcarried.sending.kept
    rw [hwire, List.append_nil] at hcarries
    rw [hsent, List.append_nil] at hkept
    rw [← hreceived, hcarries, hkept, hcarried.position.1, hposition, List.append_assoc]

end Transfer

/-- A file of three octets, which is read at once and written in two pieces. -/
private def threeOctets : List (FileTransferAction .clear) :=
  [.send ⟨8, none, some ([1, 2, 3], .done, 0), false, some ⟨SendBuffer.onePiece, [[.accepts 3]]⟩⟩ none 0,
    .receive 0 0 (some (some (.data [1, 2]))), .receive 0 2 none, .receive 0 0 (some (some (.data [3]))),
    .receive 0 1 none, .receive 0 0 (some (some (.fails Errno.econnclosedbypeer .none)))]

/-- The copy has the three octets. -/
theorem fileTransfer_exact_three : ∃ s, s.target = [1, 2, 3] ∧ TransferExact { file := [1, 2, 3] } s := by
  obtain ⟨s, hrun, htarget⟩ : ∃ s, runFrom (fileTransferStep .clear .onePiece) (.start { file := [1, 2, 3] }) threeOctets =
      some s ∧ s.target = [1, 2, 3] := ⟨_, rfl, rfl⟩
  refine ⟨s, htarget, fileTransfer_exact .clear .onePiece _ s ?_⟩
  exact reachableVia_of_forall _ (fun _ _ _ _ _ => trivial) hrun

end Connio
