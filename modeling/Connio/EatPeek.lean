import Connio.ReadApi
import Connio.ReadSplit

/-!
# Eating and peeking

What two families of the read functions of `connio.c` make of the flags and sizes they pass.

* `EatExact` — exactly the octets asked for have left the stream;
* `firstPiece` — the octets that lie in one piece when a read first finds any;
* `eatExact_iff` — **PROVED**: only `ConnAEatCount` is exact, and only when that piece holds the whole count;
* `ReadShape` — the reads that have a peek; `PeekAgrees` — the peek shows what the read would deliver;
* `peekAgrees_iff` — **PROVED**: a line and an answer do not agree, unless the pattern has no room either way.
-/

namespace Connio

open Connio.Lib

/-- The event a call assigns, on a conn whose receive buffer holds `buffer`. -/
def ReadCall.start (c : ReadCall) (buffer : List UInt8) : ReadState :=
  ⟨connEventAssign c.type c.dataMode c.pattern c.buffSize, buffer, buffer⟩

/-- A call returns to its caller, or goes through the transaction. -/
inductive CallMode where
  | sync
  | async
  deriving DecidableEq, Repr

/-! ### Eating -/

/-- `ConnEatCountEx` and `ConnAEatCountEx` -/
def CallMode.eat : CallMode → Int → ReadCall
  | .sync, count => connEatCountEx count
  | .async, count => connAEatCountEx count

/-- **Exactly the first `count` octets of the unread stream are gone.** -/
def EatExact (count : ℕ) (s : ReadState) : Prop := count ≤ s.received.length ∧ s.buffer = s.received.drop count

section Eat

variable (iob : IOBufferLib)

/-- The octets in one piece when `conditionalReadProcess` first finds any; `none` when it finds none. -/
def firstPieceRounds (buffer : List UInt8) : List ReadRound → Option ℕ
  | [] => none
  | round :: rounds =>
    if buffer ≠ [] then some (iob.getUsed round.layout buffer)
    else
      match round.fill with
      | some (some (.data octets)) => firstPieceRounds octets rounds
      | _ => none

/-- The octets a resumed read starts with. -/
def ReadInput.refilled (input : ReadInput) (buffer : List UInt8) : List UInt8 :=
  match input.resume with
  | some ⟨_, some (.data octets)⟩ => buffer ++ octets
  | _ => buffer

/-- What `firstPieceRounds` finds in the rounds of one input. -/
def ReadInput.piece (input : ReadInput) (buffer : List UInt8) : Option ℕ :=
  match input.rounds with
  | some (.conditional rounds) => firstPieceRounds iob (input.refilled buffer) rounds
  | _ => none

/-- The octets in one piece when the read first finds any in the buffer. -/
def firstPiece (buffer : List UInt8) : List ReadInput → Option ℕ
  | [] => none
  | input :: inputs => (input.piece iob buffer).or (firstPiece (input.refilled buffer) inputs)

end Eat

/-- An event that eats `count` octets. -/
structure EatEvent (count : ℕ) (e : ReadEvent) : Prop where
  type : e.type = .readCount
  copy : e.dataMode.copy = false
  delete : e.dataMode.delete = true
  remaining : e.remaining = count

/-- The event has removed `eaten` octets. -/
structure Eaten (eaten : ℕ) (s : ReadState) : Prop where
  le : eaten ≤ s.received.length
  buffer : s.buffer = s.received.drop eaten

/-- **What is known when `EventProcess` has returned:** `eaten` octets were gone before, and `piece` is what lay in one
piece when octets were found. -/
structure EatSpec (count eaten : ℕ) (piece : Option ℕ) (unread : List UInt8) (r : ReadReturn) : Prop where
  ended : r.error = 0 → ∃ before, Eaten (before + count) r.state ∧ eaten ≤ before ∧
    (before = eaten ↔ ∃ n, piece = some n ∧ count ≤ n)
  blocked : r.error ≠ 0 → EatEvent count r.state.event ∧ ∃ before, Eaten before r.state ∧
    (piece = none ∧ before = eaten ∧ r.state.buffer = unread ∨ eaten < before ∧ ∃ n, piece = some n ∧ n < count)

section EatRuns

variable {iob : IOBufferLib} {count eaten : ℕ} {s s' : ReadState}

theorem Eaten.markFree (h : Eaten eaten s) {n : ℕ} (hn : n ≤ s.buffer.length) : Eaten (eaten + n) (s.markFree n) := by
  have hlength := congrArg List.length h.buffer
  rw [List.length_drop] at hlength
  refine ⟨?_, ?_⟩
  · change eaten + n ≤ s.received.length
    have := h.le
    omega
  · change s.buffer.drop n = s.received.drop (eaten + n)
    rw [h.buffer, List.drop_drop]

theorem Eaten.refill (h : Eaten eaten s) (octets : List UInt8) :
    Eaten eaten { s with buffer := s.buffer ++ octets, received := s.received ++ octets } := by
  refine ⟨?_, ?_⟩
  · rw [List.length_append]
    exact Nat.le_add_right_of_le h.le
  · change s.buffer ++ octets = (s.received ++ octets).drop eaten
    rw [h.buffer, List.drop_append_of_le_length h.le]

/-- **One look at the buffer (proved):** the whole count is in one piece, or the piece is removed and the count is not
lowered. -/
theorem satisfyEvent_eat (he : EatEvent count s.event) (layout : ℕ) :
    satisfyEvent iob s layout =
      if count ≤ iob.getUsed layout s.buffer then (0, s.markFree count)
      else (Errno.econnmoredata, s.markFree (iob.getUsed layout s.buffer)) := by
  rw [satisfyEvent_eq, eventConditionSatisfied]
  simp only [he.type, he.remaining]
  split
  next heq =>
    split at heq <;> cases heq
    next hfull =>
      rw [if_pos hfull]
      simp [ReadState.moveFinalConditionalDataToClient, he.copy, he.delete]
  next heq =>
    split at heq <;> cases heq
    next hshort =>
      rw [if_neg hshort]
      simp only [ReadState.movePartialConditionalDataToClient, he.copy, he.delete, true_and, Bool.false_eq_true,
        if_false]
      split
      · rfl
      next hnone =>
        rw [not_not.mp hnone]
        rfl

/-- A round whose piece was not the whole count asks for more. -/
theorem EatSpec.of_moved {piece : Option ℕ} {unread : List UInt8} {r : ReadReturn} {moved n : ℕ} (hmoved : 0 < moved)
    (hn : n < count) (h : EatSpec count (eaten + moved) piece unread r) : EatSpec count eaten (some n) [] r := by
  refine ⟨fun herr => ?_, fun herr => ?_⟩
  · obtain ⟨before, hbefore, hle, _⟩ := h.ended herr
    refine ⟨before, hbefore, by omega, iff_of_false (by omega) ?_⟩
    rintro ⟨_, hsome, hcount⟩
    cases hsome
    omega
  · obtain ⟨hevent, before, hbefore, hcases⟩ := h.blocked herr
    exact ⟨hevent, before, hbefore, .inr ⟨by omega, n, rfl, hn⟩⟩

/-- A refill that fails leaves everything as it is. -/
theorem EatSpec.of_failed {r : ReadReturn} (he : EatEvent count s.event) (heaten : Eaten eaten s) (herr : r.error ≠ 0)
    (hstate : r.state = s) : EatSpec count eaten none s.buffer r := by
  subst hstate
  exact ⟨fun h => absurd h herr, fun _ => ⟨he, eaten, heaten, .inl ⟨rfl, rfl, rfl⟩⟩⟩

theorem refillFailed_removes (hdelete : s.event.dataMode.delete = true) (layout : ℕ) (err : Errno)
    (blockedOn : SocketEventType) : refillFailed iob s layout err blockedOn =
      { error := err, blockedOn := blockedOn, state := s, asserted := some err } := by
  unfold refillFailed
  rw [if_neg]
  rintro ⟨_, _, hkeeps⟩
  rw [hdelete] at hkeeps
  cases hkeeps

theorem resumeFailed_removes (hdelete : s.event.dataMode.delete = true) (layout : ℕ) (err : Errno)
    (blockedOn : SocketEventType) :
    resumeFailed iob s layout err blockedOn = { error := err, blockedOn := blockedOn, state := s } := by
  unfold resumeFailed
  rw [if_neg]
  rintro ⟨_, _, hkeeps, _⟩
  rw [hdelete] at hkeeps
  cases hkeeps

/-- **`conditionalReadProcess` (proved),** by induction on its rounds. -/
theorem conditionalReadProcess_eat (hcount : 0 < count) : ∀ {rounds : List ReadRound} {s : ReadState} {eaten : ℕ}
    {r : ReadReturn}, EatEvent count s.event → Eaten eaten s → conditionalReadProcess iob s rounds = some r →
      EatSpec count eaten (firstPieceRounds iob s.buffer rounds) [] r
  | [], _, _, _, _, _, h => by cases h
  | round :: rounds, s, eaten, r, he, heaten, h => by
    have hused := iob.getUsed_le round.layout s.buffer
    unfold conditionalReadProcess at h
    rw [satisfyEvent_eat he] at h
    by_cases hwhole : count ≤ iob.getUsed round.layout s.buffer
    · -- the whole count is in one piece
      have hfound : s.buffer ≠ [] := List.length_pos_iff.mp (by omega)
      rw [if_pos hwhole] at h
      simp only at h
      unfold firstPieceRounds
      rw [if_pos hfound]
      split at h
      · split at h <;> cases h
        exact ⟨fun _ => ⟨eaten, heaten.markFree (by omega), Nat.le_refl _, iff_of_true rfl ⟨_, rfl, hwhole⟩⟩,
          fun herr => absurd rfl herr⟩
      · rw [if_neg (by decide)] at h
        cases h
    · rw [if_neg hwhole] at h
      simp only at h
      split at h
      · split at h <;> cases h
        next hend => exact absurd rfl hend.1
      next answer hanswer =>
        have hmoved := heaten.markFree hused
        have hevent : EatEvent count (s.markFree (iob.getUsed round.layout s.buffer)).event := he
        have hnext : ∃ piece unread, EatSpec count (eaten + iob.getUsed round.layout s.buffer) piece unread r ∧
            (s.buffer = [] → piece = firstPieceRounds iob s.buffer (round :: rounds) ∧ unread = []) := by
          rw [if_pos trivial] at h
          split at h
          · cases h
          next hfill =>
            obtain ⟨octets, rfl, rfl⟩ := fillRecvBuffer_filled hfill
            refine ⟨_, _, conditionalReadProcess_eat hcount (by exact hevent) (hmoved.refill octets) h,
              fun hempty => ⟨?_, rfl⟩⟩
            simp only [firstPieceRounds, hempty, hanswer, ReadState.markFree, ne_eq, not_true_eq_false, if_false,
              List.drop_nil, List.nil_append]
          next herr hfill =>
            split at h
            · cases h
              obtain ⟨rfl, hnodata⟩ := fillRecvBuffer_failed (fun h0 => herr h0) hfill
              rw [refillFailed_removes hevent.delete]
              refine ⟨_, _, .of_failed hevent hmoved (fun h0 => herr h0) rfl, fun hempty => ⟨?_, ?_⟩⟩
              · simp only [firstPieceRounds, hempty, hanswer, ne_eq, not_true_eq_false, if_false]
                split
                next octets heq => exact absurd (Option.some.inj heq) (hnodata octets)
                · rfl
              · simp only [ReadState.markFree, hempty, List.drop_nil]
            · cases h
        obtain ⟨piece, unread, hspec, hpiece⟩ := hnext
        by_cases hempty : s.buffer = []
        · obtain ⟨rfl, rfl⟩ := hpiece hempty
          have hzero : iob.getUsed round.layout s.buffer = 0 := by
            rw [hempty] at hused ⊢
            exact Nat.le_zero.mp hused
          rw [hzero, Nat.add_zero] at hspec
          exact hspec
        · have hspec' := hspec.of_moved (iob.getUsed_pos round.layout s.buffer hempty) (Nat.lt_of_not_le hwhole)
          unfold firstPieceRounds
          rw [if_pos hempty]
          exact hspec'

/-- The rounds of an input, from a buffer that may have been refilled. -/
theorem readProcess_eat (hcount : 0 < count) {rounds : ReadRounds} {r : ReadReturn} (he : EatEvent count s.event)
    (heaten : Eaten eaten s) (h : readProcess iob s rounds = some r) :
    ∃ conditional, rounds = .conditional conditional ∧
      EatSpec count eaten (firstPieceRounds iob s.buffer conditional) s.buffer r := by
  unfold readProcess at h
  rw [he.type] at h
  cases rounds with
  | conditional conditional =>
    obtain ⟨hended, hblocked⟩ := conditionalReadProcess_eat hcount he heaten h
    refine ⟨conditional, rfl, hended, fun herr => ?_⟩
    obtain ⟨hevent, before, hbefore, ⟨hnone, hsame, hunread⟩ | hmoved⟩ := hblocked herr
    · have hempty : s.buffer = [] := by
        cases conditional with
        | nil => cases h
        | cons round rest =>
          by_contra hfound
          unfold firstPieceRounds at hnone
          rw [if_pos hfound] at hnone
          cases hnone
      exact ⟨hevent, before, hbefore, .inl ⟨hnone, hsame, hunread.trans hempty.symm⟩⟩
    · exact ⟨hevent, before, hbefore, .inr hmoved⟩
  | callback => cases h
  | conn => cases h

/-- **`socketEventProcess` (proved).** -/
theorem socketEventProcess_eat (hcount : 0 < count) {input : ReadInput} {r : ReadReturn} (he : EatEvent count s.event)
    (heaten : Eaten eaten s) (h : socketEventProcess iob s input = some r) :
    EatSpec count eaten (input.piece iob s.buffer) (input.refilled s.buffer) r := by
  obtain ⟨resume, rounds⟩ := input
  unfold socketEventProcess at h
  simp only at h
  split at h
  · obtain ⟨conditional, rfl, hspec⟩ := readProcess_eat hcount he heaten h
    exact hspec
  next resume rounds =>
    obtain ⟨layout, answer⟩ := resume
    split at h
    next hfill =>
      obtain ⟨octets, rfl, rfl⟩ := fillRecvBuffer_filled hfill
      obtain ⟨conditional, rfl, hspec⟩ := readProcess_eat hcount (by exact he) (heaten.refill octets) h
      exact hspec
    next hfill =>
      split at h
      · cases h
      next herr =>
        cases h
        obtain ⟨hsame, hnodata⟩ := fillRecvBuffer_failed herr hfill
        rw [hsame, resumeFailed_removes he.delete]
        have hkept : ReadInput.refilled ⟨some ⟨layout, answer⟩, none⟩ s.buffer = s.buffer := by
          unfold ReadInput.refilled
          split
          next heq => exact absurd (congrArg ReadResume.answer (Option.some.inj heq)) (hnodata _)
          · rfl
        rw [hkept]
        exact .of_failed he heaten herr rfl
    · cases h
  · cases h

/-- **A whole read (proved),** by induction on the times it is processed. -/
theorem readRun_eat (hcount : 0 < count) : ∀ {inputs : List ReadInput} {s : ReadState} {eaten : ℕ} {r : ReadReturn},
    EatEvent count s.event → Eaten eaten s → readRun iob s inputs = some r → r.error = 0 →
      ∃ before, Eaten (before + count) r.state ∧ eaten ≤ before ∧
        (before = eaten ↔ ∃ n, firstPiece iob s.buffer inputs = some n ∧ count ≤ n)
  | [], _, _, _, _, _, h, _ => by cases h
  | input :: inputs, s, eaten, r, he, heaten, h, herr => by
    unfold readRun at h
    split at h
    · cases h
    next r₁ hr₁ =>
      have hspec := socketEventProcess_eat hcount he heaten hr₁
      unfold firstPiece
      split at h
      next hlast =>
        cases h
        subst hlast
        rw [firstPiece, Option.or_none]
        exact hspec.ended herr
      · split at h
        next hblock =>
          obtain ⟨hevent, before, hbefore, hcases⟩ := hspec.blocked (by rw [hblock]; decide)
          obtain ⟨after, hafter, hle, hiff⟩ := readRun_eat hcount
            (s := { r₁.state with event := { r₁.state.event with inProgress := true } })
            ⟨hevent.type, hevent.copy, hevent.delete, hevent.remaining⟩ ⟨hbefore.le, hbefore.buffer⟩ h herr
          rcases hcases with ⟨hnone, rfl, hunread⟩ | ⟨hlt, n, hsome, hshort⟩
          · -- nothing was found yet
            rw [hnone, Option.none_or, ← hunread]
            exact ⟨after, hafter, hle, hiff⟩
          · refine ⟨after, hafter, by omega, iff_of_false (by omega) ?_⟩
            rw [hsome, Option.some_or]
            rintro ⟨_, hsame, hcount'⟩
            cases hsame
            omega
        · cases h

/-- A count of zero is satisfied at once, whatever the buffer holds. -/
theorem readProcess_eatNothing (he : EatEvent 0 s.event) {rounds : ReadRounds} {r : ReadReturn}
    (h : readProcess iob s rounds = some r) : r.error = 0 ∧ r.state = s := by
  unfold readProcess at h
  rw [he.type] at h
  cases rounds with
  | conditional conditional =>
    cases conditional with
    | nil => cases h
    | cons round rounds =>
      change conditionalReadProcess iob s (round :: rounds) = some r at h
      unfold conditionalReadProcess at h
      rw [satisfyEvent_eat he, if_pos (Nat.zero_le _)] at h
      simp only at h
      split at h
      · split at h <;> cases h
        exact ⟨rfl, rfl⟩
      · rw [if_neg (by decide)] at h
        cases h
  | callback => cases h
  | conn => cases h

theorem readRun_eatNothing (he : EatEvent 0 s.event) (hnew : s.event.inProgress = false) {inputs : List ReadInput}
    {r : ReadReturn} (h : readRun iob s inputs = some r) : r.state = s := by
  cases inputs with
  | nil => cases h
  | cons input inputs =>
    unfold readRun at h
    split at h
    · cases h
    next r₁ hr₁ =>
      have hended : r₁.error = 0 ∧ r₁.state = s := by
        unfold socketEventProcess at hr₁
        rw [hnew] at hr₁
        split at hr₁
        · exact readProcess_eatNothing he hr₁
        next heq _ => cases heq
        · cases hr₁
      split at h
      · cases h
        exact hended.2
      · rw [hended.1, if_neg (by decide)] at h
        cases h

/-- **Eating is exact only when the count is in one piece (proved),** and never for `ConnEatCount`, which passes a
size of 0.  `movePartialConditionalDataToClient` lowers the remaining count only when it copies. -/
theorem eatExact_iff (iob : IOBufferLib) (mode : CallMode) (count : Int) (buffer : List UInt8)
    (inputs : List ReadInput) (r : ReadReturn) (hcount : 0 < count)
    (hrun : readRun iob ((mode.eat count).start buffer) inputs = some r) (herr : r.error = 0) :
    EatExact count.toNat r.state ↔
      mode = .async ∧ ∃ n, firstPiece iob buffer inputs = some n ∧ count.toNat ≤ n := by
  have hpos : 0 < count.toNat := by omega
  cases mode with
  | sync =>
    have hnothing := readRun_eatNothing ⟨rfl, rfl, rfl, rfl⟩ rfl hrun
    rw [hnothing]
    refine iff_of_false ?_ (fun h => nomatch h.1)
    rintro ⟨hle, hdrop⟩
    have hlength := congrArg List.length hdrop
    rw [List.length_drop] at hlength
    change count.toNat ≤ buffer.length at hle
    change buffer.length = buffer.length - count.toNat at hlength
    omega
  | async =>
    have hstart : Eaten 0 (((CallMode.async.eat count).start buffer)) := ⟨Nat.zero_le _, rfl⟩
    obtain ⟨before, ⟨hle, hbuffer⟩, _, hiff⟩ := readRun_eat hpos ⟨rfl, rfl, rfl, rfl⟩ hstart hrun herr
    have hexact : EatExact count.toNat r.state ↔ before = 0 := by
      constructor
      · rintro ⟨_, hdrop⟩
        have hlength := congrArg List.length (hbuffer.symm.trans hdrop)
        rw [List.length_drop, List.length_drop] at hlength
        omega
      · rintro rfl
        rw [Nat.zero_add] at hle hbuffer
        exact ⟨hle, hbuffer⟩
    rw [hexact, hiff]
    exact (and_iff_right rfl).symm

end EatRuns

/-- Three octets are asked for; four arrive, after the read has blocked. -/
def eatInputs (octets : List UInt8) : List ReadInput :=
  [⟨none, some (.conditional [⟨0, some (some (.fails Errno.ewouldblock .readable))⟩])⟩,
    ⟨some ⟨0, some (.data octets)⟩, some (.conditional [⟨0, none⟩])⟩]

theorem eatExact_three : ∃ r, readRun .onePiece ((CallMode.async.eat 3).start []) (eatInputs [1, 2, 3, 4]) = some r ∧
    EatExact 3 r.state := by
  have hrun : readRun .onePiece ((CallMode.async.eat 3).start []) (eatInputs [1, 2, 3, 4]) = some
      { error := 0
        blockedOn := .none
        state := ⟨{ (connEventAssign .readCount { delete := true } [] 3) with inProgress := true }, [4],
          [1, 2, 3, 4]⟩ } := by decide
  exact ⟨_, hrun, (eatExact_iff .onePiece .async 3 [] _ _ (by decide) hrun rfl).mpr ⟨rfl, 4, by decide, by decide⟩⟩

/-- **`ConnEatCount( conn, 1 )` (proved):** the octet stays in the buffer. -/
theorem eat_nothing : ¬ ∀ (iob : IOBufferLib) (mode : CallMode) (count : Int) (buffer : List UInt8)
    (inputs : List ReadInput) (r : ReadReturn), 0 < count →
      readRun iob ((mode.eat count).start buffer) inputs = some r → r.error = 0 → EatExact count.toNat r.state := by
  intro h
  have hexact := h .onePiece .sync 1 [1] [⟨none, some (.conditional [⟨0, none⟩])⟩]
    { error := 0, blockedOn := .none, state := ⟨connEventAssign .readCount { delete := true } [] 0, [1], [1]⟩ }
    (by decide) (by decide) rfl
  exact absurd hexact.2 (by decide)

/-! ### Peeking -/

/-- The reads that have a peek. -/
inductive ReadShape where
  | any
  | count
  | line
  | answer
  | untilPattern (pattern : List UInt8)
  deriving DecidableEq, Repr

def ReadShape.read (a : ClientArg) : ReadShape → CallMode → ReadCall
  | .any, .sync => connReadEx a
  | .any, .async => connAReadEx a
  | .count, .sync => connReadCountEx a
  | .count, .async => connAReadCountEx a
  | .line, .sync => connReadLineEx a
  | .line, .async => connAReadLineEx a
  | .answer, .sync => connReadAnswerEx a
  | .answer, .async => connAReadAnswerEx a
  | .untilPattern pattern, .sync => connReadUntilPatternEx a pattern
  | .untilPattern pattern, .async => connAReadUntilPatternEx a pattern

def ReadShape.peek (a : ClientArg) : ReadShape → CallMode → ReadCall
  | .any, .sync => connPeekEx a
  | .any, .async => connAPeekEx a
  | .count, .sync => connPeekCountEx a
  | .count, .async => connAPeekCountEx a
  | .line, .sync => connPeekLineEx a
  | .line, .async => connAPeekLineEx a
  | .answer, .sync => connPeekAnswerEx a
  | .answer, .async => connAPeekAnswerEx a
  | .untilPattern pattern, .sync => connPeekUntilPatternEx a pattern
  | .untilPattern pattern, .async => connAPeekUntilPatternEx a pattern

/-- What the caller sees of a read. -/
structure ReadView where
  error : Errno
  status : ConnEventStatus
  transferred : ℕ
  delivered : List UInt8
  terminated : Bool
  deriving DecidableEq, Repr

def ReadReturn.view (r : ReadReturn) : ReadView :=
  ⟨r.error, r.status, r.state.event.transferred, r.state.event.delivered, r.state.event.terminated⟩

/-- `socketEventProcess` for a call that asks for no new data. -/
def ReadCall.process (c : ReadCall) (iob : IOBufferLib) (layout : ℕ) (buffer : List UInt8) : Option ReadReturn :=
  socketEventProcess iob (c.start buffer) ⟨none, some (.conditional [⟨layout, none⟩])⟩

/-- **A peek agrees with its read,** and the peek that waits with the one that does not. -/
structure PeekAgrees (iob : IOBufferLib) (shape : ReadShape) (a : ClientArg) (layout : ℕ) (buffer : List UInt8) :
    Prop where
  accepted : ∀ mode, (shape.peek a mode).accepted = (shape.read a mode).accepted
  returns : ∀ mode, ∃ r r', (shape.peek a mode).process iob layout buffer = some r ∧
    (shape.read a mode).process iob layout buffer = some r' ∧ r.view = r'.view ∧ r.state.buffer = buffer
  modes : ((shape.peek a .sync).process iob layout buffer).map ReadReturn.view =
    ((shape.peek a .async).process iob layout buffer).map ReadReturn.view

/-- What a satisfied copy shows, for `count` octets before a pattern of `patternLen`. -/
def copyView (m : DataMode) (size : ℕ) (buffer : List UInt8) (count patternLen : ℕ) : ReadView :=
  if size < count + m.roomAfter patternLen then
    ⟨Errno.emsgsize, .failed, (buffer.take (min count size)).length, buffer.take (min count size), false⟩
  else
    ⟨0, .complete, (buffer.take (count + if m.includePattern then patternLen else 0)).length,
      buffer.take (count + if m.includePattern then patternLen else 0), m.terminate⟩

section Peeks

variable {iob : IOBufferLib} {c : ReadCall} {layout count patternLen : ℕ} {buffer : List UInt8}

/-- Only a buffered read has a condition to satisfy. -/
theorem satisfied_buffered {s : ReadState} (hsat : (eventConditionSatisfied iob s layout).1 = true) :
    s.event.type = .read ∨ s.event.type = .readCount ∨ s.event.type = .readUntilPattern := by
  simp only [eventConditionSatisfied] at hsat
  split at hsat
  next ht => exact .inl ht
  next ht => exact .inr (.inl ht)
  next ht => exact .inr (.inr ht)
  · cases hsat

/-- A call whose condition is satisfied ends in its first round. -/
theorem process_satisfied (hsat : eventConditionSatisfied iob (c.start buffer) layout = (true, count, patternLen))
    {err : Errno} {s' : ReadState}
    (hmove : (c.start buffer).moveFinalConditionalDataToClient count patternLen = (err, s')) :
    c.process iob layout buffer = some { error := err, blockedOn := .none, state := s' } := by
  have herr : err ≠ Errno.econnmoredata := by
    have hfinal := (moveFinal_final (s := c.start buffer) count patternLen).error
    rw [hmove] at hfinal
    rcases hfinal with h | h
    · rw [show err = 0 from h]; decide
    · rw [show err = Errno.emsgsize from h]; decide
  have hrounds : conditionalReadProcess iob (c.start buffer) [⟨layout, none⟩] =
      some { error := err, blockedOn := .none, state := s' } := by
    unfold conditionalReadProcess
    rw [satisfyEvent_eq]
    rw [hsat]
    simp only [hmove]
    exact if_pos ⟨herr, trivial⟩
  unfold ReadCall.process socketEventProcess
  change readProcess iob (c.start buffer) (.conditional [⟨layout, none⟩]) = _
  unfold readProcess
  rcases satisfied_buffered (congrArg Prod.fst hsat) with ht | ht | ht <;> rw [ht] <;> exact hrounds

theorem start_remaining (hsat : (eventConditionSatisfied iob (c.start buffer) layout).1 = true) :
    (c.start buffer).event.remaining = c.buffSize := by
  refine if_neg ?_
  change ¬ ((c.start buffer).event.type = .readToCb ∨ (c.start buffer).event.type = .readToConn)
  rcases satisfied_buffered hsat with ht | ht | ht <;> rw [ht] <;> decide

/-- **What the caller of a satisfied copy sees (proved);** a peek leaves the buffer alone. -/
theorem process_view (hcopy : c.dataMode.copy = true) (hreplace : c.dataMode.replacePattern = false)
    (hwhole : c.dataMode.partialOk = false)
    (hsat : eventConditionSatisfied iob (c.start buffer) layout = (true, count, patternLen)) :
    ∃ r, c.process iob layout buffer = some r ∧ r.view = copyView c.dataMode c.buffSize buffer count patternLen ∧
      (c.dataMode.delete = false → r.state.buffer = buffer) := by
  have hremaining := start_remaining (congrArg Prod.fst hsat)
  have hmode : (c.start buffer).event.dataMode = c.dataMode := rfl
  have hroomAfter : count + c.dataMode.roomAfter patternLen =
      count + (if c.dataMode.includePattern then patternLen else 0) + if c.dataMode.terminate then 1 else 0 :=
    (Nat.add_assoc _ _ _).symm
  obtain ⟨⟨err, s'⟩, hmove⟩ : ∃ moved, (c.start buffer).moveFinalConditionalDataToClient count patternLen = moved :=
    ⟨_, rfl⟩
  refine ⟨_, process_satisfied hsat hmove, ?_⟩
  unfold copyView
  simp only [ReadState.moveFinalConditionalDataToClient, hmode, hcopy, hreplace, hremaining, if_true,
    Bool.false_eq_true, if_false, Nat.add_zero] at hmove
  rw [← hroomAfter] at hmove
  split at hmove
  next hroom =>
    rw [if_pos hroom]
    simp only [Prod.mk.injEq] at hmove
    obtain ⟨rfl, rfl⟩ := hmove
    cases hdelete : c.dataMode.delete <;>
      simp [ReadReturn.view, ReadReturn.status, ReadState.copyBufferedDataToClient, ReadState.markFree,
        ReadCall.start, connEventAssign, hwhole] <;> decide
  next hroom =>
    rw [if_neg hroom]
    cases hdelete : c.dataMode.delete <;> cases hterminate : c.dataMode.terminate <;>
      cases hinclude : c.dataMode.includePattern <;>
      simp only [hdelete, hterminate, hinclude, if_true, Bool.false_eq_true, if_false, Prod.mk.injEq] at hmove <;>
      obtain ⟨rfl, rfl⟩ := hmove <;>
      simp [ReadReturn.view, ReadReturn.status, ReadState.copyBufferedDataToClient, ReadState.markFree,
        ReadState.terminateClientBuffer, ReadState.removePattern, ReadCall.start, connEventAssign]

/-- The flag matters only when the octets before the pattern have room. -/
theorem copyView_include {m : DataMode} {size : ℕ} (hlength : count + patternLen ≤ buffer.length) :
    copyView { m with includePattern := true } size buffer count patternLen =
      copyView { m with includePattern := false } size buffer count patternLen ↔
      patternLen = 0 ∨ size < count + if m.terminate then 1 else 0 := by
  unfold copyView DataMode.roomAfter
  simp only [if_true, Bool.false_eq_true, if_false, Nat.zero_add, Nat.add_zero]
  generalize (if m.terminate = true then 1 else 0) = terminatorLen
  by_cases hzero : patternLen = 0
  · subst hzero
    simp only [Nat.zero_add, Nat.add_zero, true_or]
  by_cases hroom : size < count + terminatorLen
  · rw [if_pos hroom, if_pos (by omega)]
    exact iff_of_true rfl (.inr hroom)
  · rw [if_neg hroom]
    refine iff_of_false ?_ (by omega)
    by_cases hpattern : size < count + (patternLen + terminatorLen)
    · rw [if_pos hpattern]
      exact fun h => absurd (congrArg ReadView.error h) (by simp only; decide)
    · rw [if_neg hpattern]
      intro h
      have htransferred := congrArg ReadView.transferred h
      simp only [List.length_take] at htransferred
      omega

/-- The calls of a shape have one condition. -/
theorem ReadShape.condition (shape : ReadShape) (a : ClientArg) (mode : CallMode) :
    eventConditionSatisfied iob ((shape.peek a mode).start buffer) layout =
        eventConditionSatisfied iob ((shape.read a .sync).start buffer) layout ∧
      eventConditionSatisfied iob ((shape.read a mode).start buffer) layout =
        eventConditionSatisfied iob ((shape.read a .sync).start buffer) layout := by
  cases shape <;> cases mode <;> exact ⟨rfl, rfl⟩

/-- All of them copy, and only the peeks do not remove. -/
theorem ReadShape.flags (shape : ReadShape) (a : ClientArg) (mode : CallMode) :
    ((shape.peek a mode).dataMode.copy = true ∧ (shape.peek a mode).dataMode.replacePattern = false ∧
        (shape.peek a mode).dataMode.partialOk = false ∧ (shape.peek a mode).dataMode.delete = false) ∧
      (shape.read a mode).dataMode.copy = true ∧ (shape.read a mode).dataMode.replacePattern = false ∧
        (shape.read a mode).dataMode.partialOk = false := by
  cases shape <;> cases mode <;> exact ⟨⟨rfl, rfl, rfl, rfl⟩, rfl, rfl, rfl⟩

/-- What a call of a shape shows. -/
def ReadCall.shows (c : ReadCall) (buffer : List UInt8) (count patternLen : ℕ) : ReadView :=
  copyView c.dataMode c.buffSize buffer count patternLen

/-- **Agreement is agreement of the flags (proved).** -/
theorem peekAgrees_flags {shape : ReadShape} {a : ClientArg}
    (hsat : eventConditionSatisfied iob ((shape.read a .sync).start buffer) layout = (true, count, patternLen)) :
    PeekAgrees iob shape a layout buffer ↔
      (∀ mode, (shape.peek a mode).shows buffer count patternLen = (shape.read a mode).shows buffer count patternLen) ∧
        (shape.peek a .sync).shows buffer count patternLen = (shape.peek a .async).shows buffer count patternLen := by
  have hpeek : ∀ mode, ∃ r, (shape.peek a mode).process iob layout buffer = some r ∧
      r.view = (shape.peek a mode).shows buffer count patternLen ∧ r.state.buffer = buffer := by
    intro mode
    obtain ⟨⟨hcopy, hreplace, hwhole, hdelete⟩, _⟩ := shape.flags a mode
    obtain ⟨r, hr, hview, hbuffer⟩ := process_view hcopy hreplace hwhole ((shape.condition a mode).1.trans hsat)
    exact ⟨r, hr, hview, hbuffer hdelete⟩
  have hread : ∀ mode, ∃ r, (shape.read a mode).process iob layout buffer = some r ∧
      r.view = (shape.read a mode).shows buffer count patternLen := by
    intro mode
    obtain ⟨_, hcopy, hreplace, hwhole⟩ := shape.flags a mode
    obtain ⟨r, hr, hview, _⟩ := process_view hcopy hreplace hwhole ((shape.condition a mode).2.trans hsat)
    exact ⟨r, hr, hview⟩
  obtain ⟨rs, hrs, hviews, _⟩ := hpeek .sync
  obtain ⟨ra, hra, hviewa, _⟩ := hpeek .async
  constructor
  · intro h
    refine ⟨fun mode => ?_, ?_⟩
    · obtain ⟨r, hr, hview, _⟩ := hpeek mode
      obtain ⟨r', hr', hview'⟩ := hread mode
      obtain ⟨t, t', ht, ht', hsame, _⟩ := h.returns mode
      rw [hr] at ht
      rw [hr'] at ht'
      cases ht
      cases ht'
      rw [← hview, ← hview', hsame]
    · have hmodes := h.modes
      rw [hrs, hra] at hmodes
      rw [← hviews, ← hviewa]
      exact Option.some.inj hmodes
  · rintro ⟨hall, hmodes⟩
    refine ⟨fun mode => ?_, fun mode => ?_, ?_⟩
    · cases shape <;> cases mode <;> rfl
    · obtain ⟨r, hr, hview, hbuffer⟩ := hpeek mode
      obtain ⟨r', hr', hview'⟩ := hread mode
      exact ⟨r, r', hr, hr', by rw [hview, hview', hall mode], hbuffer⟩
    · rw [hrs, hra]
      exact congrArg some (by rw [hviews, hviewa, hmodes])

/-- A condition on a pattern holds by a search that found it. -/
theorem eventConditionSatisfied_found {s : ReadState} (htype : s.event.type = .readUntilPattern)
    (hpattern : s.event.pattern ≠ specialPatternCRLF)
    (hsat : eventConditionSatisfied iob s layout = (true, count, patternLen)) :
    iob.search layout (some s.event.pattern) s.buffer = .found count patternLen := by
  simp only [eventConditionSatisfied, htype, if_neg hpattern] at hsat
  split at hsat
  next hfound => cases hsat; exact hfound
  · cases hsat

/-- The condition of a line and of an answer. -/
theorem newline_condition {shape : ReadShape} {a : ClientArg} (hshape : shape = .line ∨ shape = .answer)
    (hsat : eventConditionSatisfied iob ((shape.read a .sync).start buffer) layout = (true, count, patternLen)) :
    iob.search layout (some newline) buffer = .found count patternLen := by
  have hnewline : newline ≠ specialPatternCRLF := by decide
  rcases hshape with rfl | rfl
  · exact eventConditionSatisfied_found (s := (connReadLineEx a).start buffer) rfl hnewline hsat
  · exact eventConditionSatisfied_found (s := (connReadAnswerEx a).start buffer) rfl hnewline hsat

/-- **A peek shows what the read delivers (proved),** but for a line and an answer: `ConnAPeekLine` lacks
`CONN_READ_INCLUDE_PATTERN`, and `ConnAPeekAnswer` has it.  Those agree only when nothing of the pattern is at stake. -/
theorem peekAgrees_iff (iob : IOBufferLib) (shape : ReadShape) (a : ClientArg) (layout : ℕ) (buffer : List UInt8)
    (hsat : (eventConditionSatisfied iob ((shape.read a .sync).start buffer) layout).1 = true) :
    PeekAgrees iob shape a layout buffer ↔ (shape = .line ∨ shape = .answer →
      ∀ count patternLen, iob.search layout (some newline) buffer = .found count patternLen →
        patternLen = 0 ∨ a.size.toNat ≤ count) := by
  obtain ⟨⟨_, count, patternLen⟩, hcondition⟩ : ∃ condition,
      eventConditionSatisfied iob ((shape.read a .sync).start buffer) layout = condition := ⟨_, rfl⟩
  rw [hcondition] at hsat
  obtain rfl : _ = true := hsat
  rw [peekAgrees_flags hcondition]
  by_cases hshape : shape = .line ∨ shape = .answer
  · have hfound := newline_condition hshape hcondition
    have hlength := iob.search_found _ _ _ _ _ hfound
    have hinclude : copyView { copy := true, terminate := true, includePattern := true } a.size.toNat buffer count
          patternLen = copyView { copy := true, terminate := true } a.size.toNat buffer count patternLen ↔
        patternLen = 0 ∨ a.size.toNat < count + 1 :=
      copyView_include (m := { copy := true, terminate := true }) hlength
    have hiff : (patternLen = 0 ∨ a.size.toNat ≤ count) ↔ (patternLen = 0 ∨ a.size.toNat < count + 1) := by omega
    have hall : (∀ count patternLen, iob.search layout (some newline) buffer = .found count patternLen →
        patternLen = 0 ∨ a.size.toNat ≤ count) ↔ (patternLen = 0 ∨ a.size.toNat < count + 1) := by
      refine ⟨fun h => hiff.mp (h _ _ hfound), fun h count' patternLen' hfound' => ?_⟩
      rw [hfound] at hfound'
      cases hfound'
      exact hiff.mpr h
    rw [imp_iff_right hshape, hall]
    refine Iff.trans ?_ hinclude
    rcases hshape with rfl | rfl
    · refine ⟨fun h => h.2, fun hsame => ⟨fun mode => ?_, hsame⟩⟩
      cases mode with
      | sync => rfl
      | async => exact hsame.symm
    · refine ⟨fun h => h.2.symm, fun hsame => ⟨fun mode => ?_, hsame.symm⟩⟩
      cases mode with
      | sync => rfl
      | async => exact hsame
  · -- the other shapes pass the same flags everywhere
    refine iff_of_true ?_ (fun h => absurd h hshape)
    cases shape with
    | any => exact ⟨fun mode => by cases mode <;> rfl, rfl⟩
    | count => exact ⟨fun mode => by cases mode <;> rfl, rfl⟩
    | untilPattern pattern => exact ⟨fun mode => by cases mode <;> rfl, rfl⟩
    | line => exact absurd (.inl rfl) hshape
    | answer => exact absurd (.inr rfl) hshape

end Peeks

/-- A peek until `;;` of a buffer that goes on behind it, and a peek of a line that leaves no room for a terminator. -/
theorem peekAgrees_two : PeekAgrees .onePiece (.untilPattern [59, 59]) ⟨true, 8⟩ 0 [97, 59, 98, 59, 59, 99] ∧
    PeekAgrees .onePiece .line ⟨true, 2⟩ 0 [97, 98, 10, 99] := by
  constructor
  · refine (peekAgrees_iff .onePiece (.untilPattern [59, 59]) ⟨true, 8⟩ 0 [97, 59, 98, 59, 59, 99] (by decide)).mpr ?_
    intro hshape
    rcases hshape with h | h <;> cases h
  · refine (peekAgrees_iff .onePiece .line ⟨true, 2⟩ 0 [97, 98, 10, 99] (by decide)).mpr ?_
    intro _ count patternLen hfound
    have hcount : IOBufferLib.onePiece.search 0 (some newline) [97, 98, 10, 99] = .found 2 1 := by decide
    rw [hcount] at hfound
    cases hfound
    exact .inr (by decide)

/-- **`ConnAPeekLine` of `a\n` (proved):** it shows `a`, and `ConnAReadLine` delivers `a\n`. -/
theorem peek_line : ¬ ∀ (iob : IOBufferLib) (shape : ReadShape) (a : ClientArg) (layout : ℕ) (buffer : List UInt8),
    (eventConditionSatisfied iob ((shape.read a .sync).start buffer) layout).1 = true →
      PeekAgrees iob shape a layout buffer := by
  intro h
  have hagrees := h .onePiece .line ⟨true, 10⟩ 0 [97, 10] (by decide)
  exact absurd hagrees.modes (by decide)

end Connio
