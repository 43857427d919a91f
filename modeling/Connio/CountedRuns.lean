import Connio.ReadToConn
import Connio.WriteRuns

/-!
# Transfers with a count

The three loops of `process.c` that stop at a count: `readToCallbackProcess`, `readToConnProcess`, `writeFromCB`.

* `cbReadLoop` — `readToCallbackProcess` as a loop that is left and entered again;
* `readToCallbackProcess_run`, `writeFromCB_run` — **PROVED**: the loops run as the process functions do;
* `CountedRead` — what has been handed over is the start of the stream, the rest is unread;
* `countExact` — **PROVED**: each of the three moves exactly the count, and asks for no more at any time.
-/

namespace Connio

open Connio.Lib

/-! ### A read that calls back -/

/-- What a refill does to a loop. -/
def refillOutcome (r : Errno × SocketEventType × ReadState) : LoopOutcome Errno ReadState :=
  if r.1 = 0 then .again r.2.2 else returnedOutcome r.1 r.2.1 r.2.2

/-- The rounds of `readToCallbackProcess`; it is entered again with a refill. -/
def cbReadLoop (iob : IOBufferLib) : Loop ReadState CallbackRound (Option ReceiveAnswer) Errno where
  round s round :=
    match callbackRound iob s round.layout round.callback, round.fill with
    | some (.again, s'), none => some (.again s')
    | some (.ret err, s'), none => some (.ends err s')
    | some (.fill, s'), some answer => (s'.fillRecvBuffer answer).map refillOutcome
    | _, _ => none
  resume s answer := (s.fillRecvBuffer answer).map refillOutcome
  ok := 0

/-- A read to a callback of `count` octets, with `buffer` in the receive buffer. -/
def cbReadStart (count : ℕ) (buffer : List UInt8) : LoopState Errno ReadState :=
  ⟨⟨connEventAssign .readToCb {} [] count, buffer, buffer⟩, .running⟩

/-- The octets a round offers the callback; `none` when it does not call it. -/
def ReadState.offered (s : ReadState) (iob : IOBufferLib) (layout : ℕ) : Option ℕ :=
  if iob.getUsed layout s.buffer = 0 then none else callbackOffer s (iob.getUsed layout s.buffer)

/-! ### The stream -/

/-- **The octets handed over are the start of the stream, and the rest is unread.** -/
structure CountedRead (count : ℕ) (s : ReadState) : Prop where
  count_eq : s.event.count = count
  transferred_le : s.event.transferred ≤ count
  received_le : s.event.transferred ≤ s.received.length
  delivered : s.event.delivered = s.received.take s.event.transferred
  buffer : s.buffer = s.received.drop s.event.transferred

section Reads

variable {iob : IOBufferLib} {count : ℕ} {s s' : ReadState}

theorem CountedRead.start (type : ConnEventType) (htype : type = .readToCb ∨ type = .readToConn) (count : ℕ)
    (buffer : List UInt8) : CountedRead count ⟨connEventAssign type {} [] count, buffer, buffer⟩ :=
  ⟨if_pos htype, Nat.zero_le _, Nat.zero_le _, rfl, rfl⟩

theorem CountedRead.handOver (h : CountedRead count s) {taken : ℕ} (hbuffer : taken ≤ s.buffer.length)
    (hle : s.event.transferred + taken ≤ count) : CountedRead count (s.handOver taken) := by
  have hlength := congrArg List.length h.buffer
  rw [List.length_drop] at hlength
  have hreceived := h.received_le
  refine ⟨h.count_eq, hle, ?_, ?_, ?_⟩
  · change s.event.transferred + taken ≤ s.received.length
    omega
  · change s.event.delivered ++ s.buffer.take taken = s.received.take (s.event.transferred + taken)
    rw [h.delivered, h.buffer, List.take_add]
  · change s.buffer.drop taken = s.received.drop (s.event.transferred + taken)
    rw [h.buffer, List.drop_drop]

theorem CountedRead.refill (h : CountedRead count s) {answer : Option ReceiveAnswer} {err : Errno}
    {blockedOn : SocketEventType} (hfill : s.fillRecvBuffer answer = some (err, blockedOn, s')) :
    CountedRead count s' := by
  unfold ReadState.fillRecvBuffer at hfill
  split at hfill
  · split at hfill <;> cases hfill
    exact h
  · split at hfill <;> cases hfill
    next octets _ =>
      refine ⟨h.count_eq, h.transferred_le, ?_, ?_, ?_⟩
      · rw [List.length_append]
        exact Nat.le_add_right_of_le h.received_le
      · rw [List.take_append_of_le_length h.received_le]
        exact h.delivered
      · rw [List.drop_append_of_le_length h.received_le]
        exact congrArg (· ++ octets) h.buffer
  · split at hfill <;> cases hfill
    exact h

/-- The callback is offered no more than is still to come. -/
theorem callbackOffer_counted {used offer : ℕ} (h : callbackOffer s used = some offer) (hcount : s.event.count ≠ 0) :
    offer ≤ s.event.count - s.event.transferred := by
  unfold callbackOffer at h
  rw [if_pos hcount] at h
  split at h <;> cases h
  exact Nat.min_le_right _ _

/-- What holds of a read with a count in each phase. -/
def countedOutline (count : ℕ) : Loop.Outline ReadState Errno where
  running := CountedRead count
  waiting := CountedRead count
  ended err s := CountedRead count s ∧ (err = 0 → s.event.transferred = count)

theorem refillOutcome_counted (h : CountedRead count s) {answer : Option ReceiveAnswer} {o : LoopOutcome Errno ReadState}
    (ho : (s.fillRecvBuffer answer).map refillOutcome = some o) : (countedOutline count).Holds o.standing := by
  obtain ⟨⟨err, blockedOn, s'⟩, hfill, rfl⟩ := Option.map_eq_some_iff.mp ho
  have hkept := h.refill hfill
  unfold refillOutcome
  split
  · exact hkept
  next herr => exact returnedOutcome_holds (fun _ => hkept) ⟨hkept, fun h0 => absurd h0 herr⟩

/-- **The answer of a callback (proved):** it takes octets of the stream, and the round succeeds when the count has been
reached. -/
theorem callbackAnswered_counted {layout used taken : ℕ} {response : ConnIOCBResponse} {next : RoundEnd}
    (hpos : 0 < count) (h : CountedRead count s) (hbuffer : used ≤ s.buffer.length)
    (hle : used ≤ count - s.event.transferred)
    (hanswered : callbackAnswered iob s layout used taken response = (next, s')) :
    CountedRead count s' ∧ (next = .ret 0 → s'.event.transferred = count) := by
  have htransferred := h.transferred_le
  unfold callbackAnswered at hanswered
  split at hanswered
  · cases hanswered
    exact ⟨h, nofun⟩
  next hfits =>
    have hkept : CountedRead count (s.handOver taken) := h.handOver (by omega) (by omega)
    simp only at hanswered
    split at hanswered
    next hreached =>
      cases hanswered
      have := hkept.transferred_le
      exact ⟨hkept, fun _ => Nat.le_antisymm this (hkept.count_eq ▸ hreached.2.2)⟩
    next hmore =>
      cases response with
      | goOn =>
        cases hanswered
        exact ⟨hkept, nofun⟩
      | done =>
        have hcount : (s.handOver taken).event.count ≠ 0 := by
          rw [hkept.count_eq]
          omega
        simp only [if_neg hcount] at hanswered
        cases hanswered
        exact ⟨hkept, nofun⟩
      | needMoreData =>
        simp only at hanswered
        split at hanswered
        · cases hanswered
          exact ⟨hkept, nofun⟩
        · split at hanswered
          · cases hanswered
            exact ⟨hkept, nofun⟩
          · split at hanswered <;> cases hanswered <;> exact ⟨hkept, nofun⟩
      | needMoreBuffer =>
        cases hanswered
        exact ⟨hkept, nofun⟩
      | error =>
        cases hanswered
        exact ⟨hkept, nofun⟩

/-- **A round of `readToCallbackProcess` up to the refill (proved).** -/
theorem callbackRound_counted {layout : ℕ} {callback : Option (ℕ × ConnIOCBResponse)} {next : RoundEnd}
    (hpos : 0 < count) (h : CountedRead count s) (hround : callbackRound iob s layout callback = some (next, s')) :
    CountedRead count s' ∧ (next = .ret 0 → s'.event.transferred = count) := by
  have hcount : s.event.count ≠ 0 := by
    rw [h.count_eq]
    omega
  cases callback with
  | none =>
    simp only [callbackRound] at hround
    split at hround
    · cases hround
      exact ⟨h, nofun⟩
    · split at hround <;> cases hround
      next hreached =>
        refine ⟨h, fun _ => ?_⟩
        unfold callbackOffer at hreached
        rw [if_pos hcount] at hreached
        split at hreached
        next hle => exact Nat.le_antisymm h.transferred_le (h.count_eq ▸ hle)
        · cases hreached
  | some answer =>
    obtain ⟨taken, response⟩ := answer
    simp only [callbackRound] at hround
    split at hround
    · cases hround
    · obtain ⟨used, hoffer, hanswered⟩ := Option.map_eq_some_iff.mp hround
      have hle := callbackOffer_counted hoffer hcount
      rw [h.count_eq] at hle
      have hbuffer := Nat.le_trans (callbackOffer_le hoffer) (iob.getUsed_le layout s.buffer)
      exact callbackAnswered_counted hpos h hbuffer hle hanswered

theorem cbReadLoop_counted (hpos : 0 < count) : (cbReadLoop iob).Keeps (countedOutline count) where
  round := by
    intro s round o hs ho
    unfold cbReadLoop at ho
    simp only at ho
    split at ho
    next hround _ =>
      cases ho
      exact (callbackRound_counted hpos hs hround).1
    next hround _ =>
      cases ho
      obtain ⟨hkept, hended⟩ := callbackRound_counted hpos hs hround
      exact ⟨hkept, fun h0 => hended (by rw [h0])⟩
    next hround _ => exact refillOutcome_counted (callbackRound_counted hpos hs hround).1 ho
    · cases ho
  resume := fun _ _ _ hs ho => refillOutcome_counted hs ho
  fail := fun _ _ hs hcode => ⟨hs, fun h0 => absurd h0 hcode⟩

/-! ### A read to another conn -/

theorem connFill_counted {needed : ℕ} : ∀ {fills : List ConnFill} {s s' : ReadState} {bufferCount : ℕ}
    {x : Errno × SocketEventType ⊕ ℕ}, CountedRead count s → connFill iob needed s bufferCount fills = some (x, s') →
      CountedRead count s' ∧ ∀ err blockedOn, x = .inl (err, blockedOn) → err ≠ 0
  | [], s, s', _, x, hs, h => by
    unfold connFill at h
    split at h <;> cases h
    exact ⟨hs, fun _ _ h0 => by cases h0⟩
  | fill :: fills, s, s', _, x, hs, h => by
    unfold connFill at h
    split at h
    · cases h
    split at h
    · cases h
    next hfill => exact connFill_counted (hs.refill hfill) h
    next herr hfill =>
      have hkept := hs.refill hfill
      split at h
      · cases h
      split at h <;> cases h
      · exact ⟨hkept, fun _ _ h0 => by cases h0⟩
      · refine ⟨hkept, fun err blockedOn heq => ?_⟩
        cases heq
        exact fun h0 => herr h0

/-- The write of a round hands octets over, and does not complete the event. -/
theorem write_handsOver {c c' : ConnCopy} {errno : Errno} {sendCount : Int} {rounds : List WriteRound}
    (h : c.write errno sendCount rounds = some c') : (∃ sent ≤ sendCount.toNat, c'.source = c.source.handOver sent) ∧
      (c.phase = .running → c'.phase ≠ .ended 0) := by
  obtain ⟨⟨sent, errno', dest⟩, hwrite, heq⟩ := Option.map_eq_some_iff.mp h
  have hsent := (copyWrite_sent hwrite).1
  simp only at heq
  split at heq
  · subst heq
    exact ⟨⟨sent, hsent, rfl⟩, fun hrunning => by rw [hrunning]; nofun⟩
  next herr =>
    subst heq
    refine ⟨⟨sent, hsent, rfl⟩, fun _ => ?_⟩
    rw [returned_none]
    exact fun h0 => herr (CopyPhase.ended.inj h0)

/-- What holds of a copy with a count. -/
structure CountedCopy (count : ℕ) (c : ConnCopy) : Prop where
  source : CountedRead count c.source
  ended : c.phase = .ended 0 → c.source.event.transferred = count

theorem returned_counted {c : ConnCopy} {err : Errno} {blockedOn : SocketEventType} (h : CountedRead count c.source)
    (herr : err = 0 → c.source.event.transferred = count) : CountedCopy count (c.returned err blockedOn) := by
  refine ⟨h, fun hended => ?_⟩
  unfold ConnCopy.returned at hended
  simp only at hended
  split at hended
  · cases hended
  · exact herr (CopyPhase.ended.inj hended)

/-- **Every step of a copy (proved).** -/
theorem copyStep_counted (hcount : count < 2 ^ 31) {c c' : ConnCopy} {a : CopyAction} (h : CountedCopy count c)
    (hstep : copyStep iob c a = some c') : CountedCopy count c' := by
  cases a with
  | round round =>
    obtain ⟨hrunning, hround⟩ := copyStep_round hstep
    have htransferred := h.source.transferred_le
    have hcount_eq := h.source.count_eq
    unfold ConnCopy.round at hround
    split at hround
    next hreached =>
      split at hround <;> cases hround
      exact returned_counted h.source fun _ => by omega
    next hmore =>
      have hneeded := stillNeeded_pos (s := c.source) (by omega)
      split at hround
      · cases hround
      next hfill =>
        cases hround
        obtain ⟨hkept, herr⟩ := connFill_counted h.source hfill
        exact returned_counted hkept fun h0 => absurd h0 (herr _ _ rfl)
      next bufferCount source hfill =>
        obtain ⟨hkept, _⟩ := connFill_counted h.source hfill
        have hbuffer := connFill_le (iob.getUsed_le _ _) hfill
        have hevent := connFill_event hfill
        obtain ⟨⟨sent, hsent, hsource⟩, hopen⟩ := write_handsOver hround
        rw [hneeded] at hsent
        refine ⟨?_, fun hended => absurd hended (hopen hrunning)⟩
        rw [hsource]
        have hsame : source.event.transferred = c.source.event.transferred := by rw [hevent]
        refine CountedRead.handOver hkept ?_ ?_
        · omega
        · omega
  | resume answer dest =>
    simp only [copyStep] at hstep
    split at hstep
    · split at hstep <;> cases hstep
      next hfill => exact ⟨h.source.refill hfill, fun h0 => by cases h0⟩
      next herr hfill => exact returned_counted (h.source.refill hfill) fun h0 => absurd h0 (fun h => herr h)
    · cases hstep

end Reads

/-! ### A write from a callback -/

section Writes

variable {t : Transport} {count : ℕ} {s s' : WriteState}

/-- What has been supplied counts, and no more than the count. -/
structure CountedWrite (count : ℕ) (s : WriteState) : Prop where
  count_eq : s.count = count
  transferred_le : s.transferred ≤ count
  supplied : s.supplied.length = s.transferred

/-- What a write with a count has done when it is complete. -/
def WriteComplete (count : ℕ) (s : WriteState) : Prop := s.transferred = count ∧ s.buffer = []

def countedWriteOutline (count : ℕ) : Loop.Outline WriteCall Errno where
  running c := CountedWrite count c.write
  waiting c := CountedWrite count c.write
  ended err c := CountedWrite count c.write ∧ (err = 0 → WriteComplete count c.write)

theorem CountedWrite.congr (h : CountedWrite count s) (hcount : s'.count = s.count)
    (htransferred : s'.transferred = s.transferred) (hsupplied : s'.supplied = s.supplied) : CountedWrite count s' :=
  ⟨hcount.trans h.count_eq, htransferred ▸ h.transferred_le, by rw [hsupplied, htransferred, h.supplied]⟩

theorem CountedWrite.supply (h : CountedWrite count s) {data : List UInt8}
    (hle : s.transferred + data.length ≤ count) : CountedWrite count (s.supply data) := by
  refine ⟨h.count_eq, hle, ?_⟩
  change (s.supplied ++ data).length = s.transferred + data.length
  rw [List.length_append, h.supplied]

/-- The flush that ends the event succeeds with an empty buffer. -/
theorem finish_counted {last : Option (FlushAnswers t.Failure)} {next : WriteNext} (h : CountedWrite count s)
    (hreached : count ≤ s.transferred) (hfinish : s.finish t.send last = some (next, s')) :
    CountedWrite count s' ∧ ∀ blockedOn, next = .ret 0 blockedOn → WriteComplete count s' := by
  obtain ⟨err, blockedOn, rfl, hiff, hcount, htransferred, hsupplied⟩ := finish_spec hfinish
  refine ⟨h.congr hcount htransferred hsupplied, fun _ h0 => ⟨?_, ?_⟩⟩
  · rw [htransferred]
    exact Nat.le_antisymm h.transferred_le hreached
  · cases h0
    exact hiff.mp rfl

/-- **The answer of a callback that was asked for `request` octets (proved).** -/
theorem answered_counted {round : WriteCbRound t.Failure} {request : ℕ} {data : List UInt8}
    {response : ConnIOCBResponse} {errno : Errno} {next : WriteNext} (hpos : 0 < count) (hs : CountedWrite count s)
    (hle : s.transferred + request ≤ count)
    (h : s.answered t.send round request data response errno = some (next, s')) :
    CountedWrite count s' ∧ ∀ blockedOn, next = .ret 0 blockedOn → WriteComplete count s' := by
  simp only [WriteState.answered] at h
  split at h
  · cases h
    exact ⟨hs, fun _ h0 => by cases h0⟩
  have hkept : CountedWrite count (s.supply data) := hs.supply (by omega)
  split at h
  next hreached => exact finish_counted hkept (hkept.count_eq ▸ hreached.2.2) h
  cases response with
  | goOn =>
    cases h
    exact ⟨hkept, fun _ h0 => by cases h0⟩
  | needMoreBuffer =>
    simp only at h
    split at h
    · cases h
      exact ⟨hkept, fun _ h0 => by cases h0⟩
    · obtain ⟨f, _, hmap⟩ := Option.bind_eq_some_iff.mp h
      obtain ⟨r, hflush, heq⟩ := Option.map_eq_some_iff.mp hmap
      obtain ⟨_, hcount, htransferred, hsupplied⟩ := flush_empty hflush
      cases heq
      refine ⟨hkept.congr hcount htransferred hsupplied, fun blockedOn h0 => ?_⟩
      split at h0
      · cases h0
      next herr => exact absurd (WriteNext.ret.inj h0).1 herr
  | done =>
    -- the count was not reached
    have hcount : (s.supply data).count ≠ 0 := by
      rw [hkept.count_eq]
      omega
    simp only [if_neg hcount] at h
    cases h
    exact ⟨hkept, fun _ h0 => by cases h0⟩
  | error =>
    cases h
    refine ⟨hkept, fun blockedOn h0 => ?_⟩
    exact absurd (WriteNext.ret.inj h0).1 (WriteState.callbackError_ne_zero errno)
  | needMoreData =>
    cases h
    exact ⟨hkept, fun _ h0 => by cases h0⟩

/-- The callback is asked for no more than is still to come. -/
theorem request_counted {bufferSpace request : ℕ} (hpos : 0 < count) (h : CountedWrite count s)
    (hrequest : s.request bufferSpace = some request) : s.transferred + request ≤ count := by
  have hle := h.transferred_le
  have hcount : s.count ≠ 0 := by
    rw [h.count_eq]
    omega
  unfold WriteState.request at hrequest
  rw [if_pos hcount, h.count_eq] at hrequest
  split at hrequest <;> cases hrequest
  omega

theorem asked_counted (hpos : 0 < count) (h : CountedWrite count s) {round : WriteCbRound t.Failure} {request : ℕ}
    (hasked : s.asked t round = some request) : request ≤ count - s.transferred := by
  unfold WriteState.asked at hasked
  split at hasked
  next bufferSpace err blockedOn room hroom =>
    obtain ⟨_, hcount, htransferred, hsupplied⟩ := makeRoom_spec hroom
    have hsame : room.transferred = s.transferred := htransferred
    split at hasked
    · have hle : room.transferred + request ≤ count :=
        request_counted hpos (h.congr hcount htransferred hsupplied) hasked
      omega
    · cases hasked
  · cases hasked

theorem writeLoop_counted (hpos : 0 < count) : (writeLoop t).Keeps (countedWriteOutline count) where
  round := by
    intro c round o hc ho
    obtain ⟨⟨next, write⟩, hround, rfl⟩ := Option.map_eq_some_iff.mp ho
    obtain ⟨bufferSpace, err, blockedOn, room, hroom, hcases⟩ := round_cases hround
    obtain ⟨_, hcount, htransferred, hsupplied⟩ := makeRoom_spec hroom
    have hkept := CountedWrite.congr hc hcount htransferred hsupplied
    have hround : CountedWrite count write ∧ ∀ blockedOn, next = .ret 0 blockedOn → WriteComplete count write := by
      rcases hcases with ⟨herr, _, rfl, rfl⟩ | ⟨_, _, hreached, hfinish⟩ | ⟨_, _, _, _, _, _, hrequest, _, hanswered⟩
      · exact ⟨hkept, fun _ h0 => absurd (WriteNext.ret.inj h0).1 herr⟩
      · refine finish_counted hkept ?_ hfinish
        unfold WriteState.request at hreached
        rw [if_pos (by rw [hkept.count_eq]; omega)] at hreached
        split at hreached
        next hle => exact hkept.count_eq ▸ hle
        · cases hreached
      · exact answered_counted hpos hkept (request_counted hpos hkept hrequest) hanswered
    cases next with
    | again => exact hround.1
    | ret err blockedOn =>
      exact returnedOutcome_holds (fun _ => hround.1) ⟨hround.1, fun h0 => hround.2 blockedOn (by rw [h0])⟩
  resume := by
    intro c w o hc ho
    cases ho
    exact hc
  fail := fun c code hc hcode => ⟨hc, fun h0 => absurd h0 hcode⟩

end Writes

/-! ### The loops are the process functions -/

section Functions

variable {t : Transport} {iob : IOBufferLib}

/-- **A run of `writeFromCB` is a run of its loop (proved).** -/
theorem writeFromCB_run : ∀ {rounds : List (WriteCbRound t.Failure)} {s : WriteState} {done : Bool} {r : WriteReturn},
    writeFromCB t.send s rounds = some r → ∃ done',
      runFrom (writeLoop t).step ⟨⟨s, done⟩, .running⟩ (rounds.map .round) =
        some (returnedOutcome r.1.1 r.1.2 ⟨r.2, done'⟩).standing
  | [], _, _, _, h => by cases h
  | round :: rounds, s, done, r, h => by
    simp only [writeFromCB] at h
    split at h
    · cases h
    next s' hround =>
      have hstep : (writeLoop t).step ⟨⟨s, done⟩, .running⟩ (.round round) =
          some ⟨⟨s', done || s.saysDone t round⟩, .running⟩ := by
        simp only [Loop.step, writeLoop, if_true, hround, Option.map_some, WriteNext.outcome, LoopOutcome.standing]
      obtain ⟨done', hrest⟩ := writeFromCB_run h
      refine ⟨done', ?_⟩
      rw [List.map_cons, runFrom, hstep, Option.bind_some, hrest]
    next err blockedOn s' hround =>
      split at h <;> cases h
      next hlast =>
        subst hlast
        refine ⟨done || s.saysDone t round, ?_⟩
        simp only [List.map_cons, List.map_nil, runFrom, Loop.step, writeLoop, if_true, hround, Option.map_some,
          WriteNext.outcome, Option.bind_some]

/-- **A run of `readToCallbackProcess` is a run of its loop (proved).** -/
theorem readToCallbackProcess_run : ∀ {rounds : List CallbackRound} {s : ReadState} {r : ReadReturn},
    readToCallbackProcess iob s rounds = some r →
      runFrom (cbReadLoop iob).step ⟨s, .running⟩ (rounds.map .round) =
        some (returnedOutcome r.error r.blockedOn r.state).standing
  | [], _, _, h => by cases h
  | round :: rounds, s, r, h => by
    unfold readToCallbackProcess at h
    rw [List.map_cons, runFrom]
    split at h
    next s' hround hfill =>
      have hstep : (cbReadLoop iob).step ⟨s, .running⟩ (.round round) = some ⟨s', .running⟩ := by
        simp only [Loop.step, cbReadLoop, if_true, hround, hfill, Option.map_some, LoopOutcome.standing]
      rw [hstep, Option.bind_some]
      exact readToCallbackProcess_run h
    next err s' hround hfill =>
      split at h <;> cases h
      next hlast =>
        subst hlast
        simp only [Loop.step, cbReadLoop, if_true, hround, hfill, Option.map_some, Option.bind_some, List.map_nil,
          runFrom, returnedOutcome_none]
    next s' answer hround hfill =>
      split at h
      · cases h
      next blockedOn s'' hrefill =>
        have hstep : (cbReadLoop iob).step ⟨s, .running⟩ (.round round) = some ⟨s'', .running⟩ := by
          simp only [Loop.step, cbReadLoop, if_true, hround, hfill, hrefill, Option.map_some, refillOutcome,
            LoopOutcome.standing]
        rw [hstep, Option.bind_some]
        exact readToCallbackProcess_run h
      next err blockedOn s'' herr hrefill =>
        split at h <;> cases h
        next hlast =>
          subst hlast
          simp only [Loop.step, cbReadLoop, if_true, hround, hfill, hrefill, Option.map_some, Option.bind_some,
            List.map_nil, runFrom, refillOutcome, if_neg herr]
    · cases h

end Functions

/-! ### The theorem -/

/-- What a read with a count has done when it is complete. -/
structure ReadComplete (count : ℕ) (s : ReadState) : Prop where
  transferred : s.event.transferred = count
  received : count ≤ s.received.length
  delivered : s.event.delivered = s.received.take count
  /-- the octets beyond the count are left unread -/
  unread : s.buffer = s.received.drop count

theorem CountedRead.complete {count : ℕ} {s : ReadState} (h : CountedRead count s)
    (hall : s.event.transferred = count) : ReadComplete count s := by
  subst hall
  exact ⟨rfl, h.received_le, h.delivered, h.buffer⟩

/-- **Transfers with a count are exact (proved):** for a positive count, a read to a callback, a read to another conn and
a write from a callback that complete have moved exactly the count, and no round offers or asks for more than is still to
come. -/
theorem countExact (length : BitVec 32) (hpos : 0 < length.toInt) :
    (∀ (iob : IOBufferLib) (buffer : List UInt8) (p : LoopState Errno ReadState),
      Reachable (enabled (cbReadLoop iob).step) (cbReadStart (unsignedLong length) buffer) p →
        (p.phase = .ended 0 → ReadComplete length.toInt.toNat p.state) ∧
          ∀ layout, p.phase = .running → ∀ offer ∈ p.state.offered iob layout,
            offer ≤ length.toInt.toNat - p.state.event.transferred) ∧
    (∀ (iob : IOBufferLib) (buffer : List UInt8) (dest : SyncConn) (errno : Errno) (c : ConnCopy),
      Reachable (enabled (copyStep iob)) (ConnCopy.start length buffer buffer dest errno) c →
        (c.phase = .ended 0 → ReadComplete length.toInt.toNat c.source) ∧
          c.source.event.transferred ≤ length.toInt.toNat) ∧
    ∀ (t : Transport) (buffer : List UInt8) (p : LoopState Errno WriteCall),
      Reachable (enabled (writeLoop t).step) (WriteCall.start (unsignedLong length) buffer) p →
        (p.phase = .ended 0 → WriteComplete length.toInt.toNat p.state.write ∧
          p.state.write.supplied.length = length.toInt.toNat) ∧
          ∀ round, p.phase = .running → ∀ request ∈ p.state.write.asked t round,
            request ≤ length.toInt.toNat - p.state.write.transferred := by
  have heq := unsignedLong_eq length
  rw [if_pos (Int.le_of_lt hpos)] at heq
  have hcount : unsignedLong length = length.toInt.toNat := by omega
  have hbound := unsignedLong_pos hpos
  have hpos' : 0 < length.toInt.toNat := by omega
  rw [hcount] at hbound ⊢
  refine ⟨fun iob buffer p hp => ?_, fun iob buffer dest errno c hc => ?_, fun t buffer p hp => ?_⟩
  · have hholds := Loop.run (cbReadLoop_counted hpos')
      (show (countedOutline length.toInt.toNat).Holds (cbReadStart length.toInt.toNat buffer) from
        CountedRead.start _ (.inl rfl) _ buffer) hp
    refine ⟨fun hended => ?_, fun layout hrunning offer hoffer => ?_⟩
    · obtain ⟨hcounted, hall⟩ := hholds.at_ended hended
      exact hcounted.complete (hall rfl)
    · have hcounted := hholds.at_running hrunning
      have hne : p.state.event.count ≠ 0 := by
        rw [hcounted.count_eq]
        omega
      have hle := callbackOffer_counted (Option.ite_none_left_eq_some.mp hoffer).2 hne
      rwa [hcounted.count_eq] at hle
  · have hinv : CountedCopy length.toInt.toNat c := hc.invariant
      ⟨hcount ▸ CountedRead.start _ (.inr rfl) _ buffer, nofun⟩ fun _ _ _ hs _ hstep => copyStep_counted hbound hs hstep
    exact ⟨fun hended => hinv.source.complete (hinv.ended hended), hinv.source.transferred_le⟩
  · have hholds := Loop.run (writeLoop_counted hpos')
      (show (countedWriteOutline length.toInt.toNat).Holds (WriteCall.start length.toInt.toNat buffer) from
        ⟨rfl, Nat.zero_le _, rfl⟩) hp
    refine ⟨fun hended => ?_, fun round hrunning request hasked => ?_⟩
    · obtain ⟨hcounted, hall⟩ := hholds.at_ended hended
      exact ⟨hall rfl, hcounted.supplied.trans (hall rfl).1⟩
    · exact asked_counted hpos' (hholds.at_running hrunning) hasked

/-- Three octets to a callback that takes two of the buffer and then one of the refill. -/
theorem countExact_three : ReadComplete 3
    ⟨{ type := .readToCb, count := 3, transferred := 3, delivered := [1, 2, 3] }, [4], [1, 2, 3, 4]⟩ := by
  have hrun : runFrom (cbReadLoop .onePiece).step (cbReadStart (unsignedLong 3) [1, 2])
      [.round ⟨0, some (2, .goOn), none⟩, .round ⟨0, none, some (some (.data [3, 4]))⟩,
        .round ⟨0, some (1, .goOn), none⟩] = some
      ⟨⟨{ type := .readToCb, count := 3, transferred := 3, delivered := [1, 2, 3] }, [4], [1, 2, 3, 4]⟩, .ended 0⟩ := rfl
  exact ((countExact 3 (by decide)).1 .onePiece [1, 2] _ (reachable_of_runFrom hrun)).1 rfl

end Connio
