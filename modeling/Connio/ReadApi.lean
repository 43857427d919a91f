import Connio.Read

/-!
# The reads the API can build

The buffered read functions of `connio.c` are calls of `ConnReadToCondition` and `ConnAReadToCondition` with
their own type, pattern and flags.

* `ReadCall` — what these two are called with; `ReadCall.accepted` — their own checks;
* `connReadEx` ... `connATestReadUntilPatternEx` — the functions under their source names; `ApiRead` — any of
  them;
* `MovesWhenFull` — `IOBSearch` always has something to move out of a full buffer;
* `FillsUnsatisfied` — the receive buffer becomes full and does not satisfy the read;
* `conditionalReadProcess_asserted` — **PROVED**: the fatal assertion fails for a peek whose buffer fills up
  like this, and for no other read.
-/

namespace Connio

open Connio.Lib

/-- `MAX_PATTERN_SIZE` -/
def maxPatternSize : ℕ := 7

/-- What `ConnReadToCondition` or `ConnAReadToCondition` is called with. -/
structure ReadCall where
  /-- what the argument checks have left in `errno` -/
  errno : Errno
  type : ConnEventType
  pattern : List UInt8 := []
  dataMode : DataMode
  buffSize : ℕ
  deriving DecidableEq, Repr

/-- The call passes the tests of `errno` and of the pattern's size. -/
def ReadCall.accepted (c : ReadCall) : Bool :=
  decide (c.errno = 0) && (decide (c.type ≠ .readUntilPattern) ||
    decide (c.pattern.length + 1 ≤ maxPatternSize + 1))

/-- The buffer of a client: whether the pointer is NULL, and the size it is said to have. -/
structure ClientArg where
  notNull : Bool
  size : Int
  deriving DecidableEq, Repr

/-- `notNull( buff )` and `isPos( buffSize )` -/
def ClientArg.errno (a : ClientArg) : Errno :=
  if a.notNull = true ∧ 0 < a.size then 0 else Errno.einval

/-- `isPos( count )` -/
def countErrno (count : Int) : Errno := if 0 < count then 0 else Errno.einval

/-- The pattern `"\n"`. -/
def newline : List UInt8 := [10]

/-! ### Synchronous reads -/

section Calls

variable (a : ClientArg)

def connReadEx : ReadCall := ⟨a.errno, .read, [], { copy := true, delete := true }, a.size.toNat⟩

def connReadCountEx : ReadCall :=
  ⟨a.errno, .readCount, [], { copy := true, delete := true }, a.size.toNat⟩

def connReadLineEx : ReadCall :=
  ⟨a.errno, .readUntilPattern, newline,
    { copy := true, delete := true, includePattern := true, terminate := true }, a.size.toNat⟩

def connReadCRLFEx : ReadCall :=
  ⟨a.errno, .readUntilPattern, specialPatternCRLF, { copy := true, delete := true, terminate := true },
    a.size.toNat⟩

def connReadGetSEx (includeLF : Bool) : ReadCall :=
  ⟨a.errno, .readUntilPattern, newline,
    { copy := true, delete := true, partialOk := true, terminate := true, includePattern := includeLF },
    a.size.toNat⟩

def connReadAnswerEx : ReadCall :=
  ⟨a.errno, .readUntilPattern, newline, { copy := true, delete := true, terminate := true },
    a.size.toNat⟩

def connReadUntilPatternEx (pattern : List UInt8) : ReadCall :=
  ⟨a.errno, .readUntilPattern, pattern, { copy := true, delete := true }, a.size.toNat⟩

/-- The count is checked, and not passed on. -/
def connEatCountEx (count : Int) : ReadCall := ⟨countErrno count, .readCount, [], { delete := true }, 0⟩

def connPeekEx : ReadCall := ⟨a.errno, .read, [], { copy := true }, a.size.toNat⟩

def connPeekCountEx : ReadCall := ⟨a.errno, .readCount, [], { copy := true }, a.size.toNat⟩

def connPeekLineEx : ReadCall :=
  ⟨a.errno, .readUntilPattern, newline, { copy := true, includePattern := true, terminate := true },
    a.size.toNat⟩

def connPeekAnswerEx : ReadCall :=
  ⟨a.errno, .readUntilPattern, newline, { copy := true, terminate := true }, a.size.toNat⟩

def connPeekUntilPatternEx (pattern : List UInt8) : ReadCall :=
  ⟨a.errno, .readUntilPattern, pattern, { copy := true }, a.size.toNat⟩

/-! ### Asynchronous reads -/

def connAReadEx : ReadCall := ⟨a.errno, .read, [], { copy := true, delete := true }, a.size.toNat⟩

def connAReadCountEx : ReadCall :=
  ⟨a.errno, .readCount, [], { copy := true, delete := true }, a.size.toNat⟩

def connAReadLineEx : ReadCall :=
  ⟨a.errno, .readUntilPattern, newline,
    { copy := true, delete := true, includePattern := true, terminate := true }, a.size.toNat⟩

def connAReadCRLFEx (includeLF : Bool) : ReadCall :=
  ⟨a.errno, .readUntilPattern, specialPatternCRLF,
    { copy := true, delete := true, partialOk := true, terminate := true, includePattern := includeLF },
    a.size.toNat⟩

def connAGetSEx (includeLF : Bool) : ReadCall :=
  ⟨a.errno, .readUntilPattern, newline,
    { copy := true, delete := true, partialOk := true, terminate := true, includePattern := includeLF },
    a.size.toNat⟩

def connAReadAnswerEx : ReadCall :=
  ⟨a.errno, .readUntilPattern, newline, { copy := true, delete := true, terminate := true },
    a.size.toNat⟩

def connAReadUntilPatternEx (pattern : List UInt8) : ReadCall :=
  ⟨a.errno, .readUntilPattern, pattern, { copy := true, delete := true }, a.size.toNat⟩

def connAEatCountEx (count : Int) : ReadCall :=
  ⟨countErrno count, .readCount, [], { delete := true }, count.toNat⟩

def connAPeekEx : ReadCall := ⟨a.errno, .read, [], { copy := true }, a.size.toNat⟩

def connAPeekCountEx : ReadCall := ⟨a.errno, .readCount, [], { copy := true }, a.size.toNat⟩

def connAPeekLineEx : ReadCall :=
  ⟨a.errno, .readUntilPattern, newline, { copy := true, terminate := true }, a.size.toNat⟩

def connAPeekAnswerEx : ReadCall :=
  ⟨a.errno, .readUntilPattern, newline, { copy := true, includePattern := true, terminate := true },
    a.size.toNat⟩

def connAPeekUntilPatternEx (pattern : List UInt8) : ReadCall :=
  ⟨a.errno, .readUntilPattern, pattern, { copy := true }, a.size.toNat⟩

def connATestReadEx : ReadCall := ⟨0, .read, [], {}, 0⟩

def connATestReadCountEx (count : Int) : ReadCall := ⟨countErrno count, .readCount, [], {}, count.toNat⟩

def connATestReadLineEx : ReadCall := ⟨0, .readUntilPattern, newline, {}, 0⟩

def connATestReadCRLFEx : ReadCall := ⟨0, .readUntilPattern, specialPatternCRLF, {}, 0⟩

def connATestReadUntilPatternEx (pattern : List UInt8) : ReadCall := ⟨0, .readUntilPattern, pattern, {}, 0⟩

end Calls

/-- **The buffered reads of the API.** -/
inductive ApiRead : ReadCall → Prop
  | connRead (a) : ApiRead (connReadEx a)
  | connReadCount (a) : ApiRead (connReadCountEx a)
  | connReadLine (a) : ApiRead (connReadLineEx a)
  | connReadCRLF (a) : ApiRead (connReadCRLFEx a)
  | connReadGetS (a includeLF) : ApiRead (connReadGetSEx a includeLF)
  | connReadAnswer (a) : ApiRead (connReadAnswerEx a)
  | connReadUntilPattern (a pattern) : ApiRead (connReadUntilPatternEx a pattern)
  | connEatCount (count) : ApiRead (connEatCountEx count)
  | connPeek (a) : ApiRead (connPeekEx a)
  | connPeekCount (a) : ApiRead (connPeekCountEx a)
  | connPeekLine (a) : ApiRead (connPeekLineEx a)
  | connPeekAnswer (a) : ApiRead (connPeekAnswerEx a)
  | connPeekUntilPattern (a pattern) : ApiRead (connPeekUntilPatternEx a pattern)
  | connARead (a) : ApiRead (connAReadEx a)
  | connAReadCount (a) : ApiRead (connAReadCountEx a)
  | connAReadLine (a) : ApiRead (connAReadLineEx a)
  | connAReadCRLF (a includeLF) : ApiRead (connAReadCRLFEx a includeLF)
  | connAGetS (a includeLF) : ApiRead (connAGetSEx a includeLF)
  | connAReadAnswer (a) : ApiRead (connAReadAnswerEx a)
  | connAReadUntilPattern (a pattern) : ApiRead (connAReadUntilPatternEx a pattern)
  | connAEatCount (count) : ApiRead (connAEatCountEx count)
  | connAPeek (a) : ApiRead (connAPeekEx a)
  | connAPeekCount (a) : ApiRead (connAPeekCountEx a)
  | connAPeekLine (a) : ApiRead (connAPeekLineEx a)
  | connAPeekAnswer (a) : ApiRead (connAPeekAnswerEx a)
  | connAPeekUntilPattern (a pattern) : ApiRead (connAPeekUntilPatternEx a pattern)
  | connATestRead : ApiRead connATestReadEx
  | connATestReadCount (count) : ApiRead (connATestReadCountEx count)
  | connATestReadLine : ApiRead connATestReadLineEx
  | connATestReadCRLF : ApiRead connATestReadCRLFEx
  | connATestReadUntilPattern (pattern) : ApiRead (connATestReadUntilPatternEx pattern)

/-! ### The fatal assertion -/

/-- **`IOBSearch` always has something to move out of a full buffer,** for a pattern the API accepts. -/
def MovesWhenFull (iob : IOBufferLib) : Prop :=
  ∀ layout (pattern : Option (List UInt8)) b count, (∀ w ∈ pattern, w.length ≤ maxPatternSize) →
    iob.search layout pattern b = .notFound count → b.length = connIobSize → 0 < count

/-- An event built by an accepted call, at any time of its life. -/
structure ReadCall.Builds (c : ReadCall) (e : ReadEvent) : Prop where
  api : ApiRead c
  accepted : c.accepted = true
  type : e.type = c.type
  dataMode : e.dataMode = c.dataMode
  pattern : e.pattern = c.pattern

/-- A read that copies and does not remove. -/
def DataMode.peeks (m : DataMode) : Bool := m.copy && !m.delete

/-- The octets `conditionalReadProcess` receives. -/
def roundOctets (rounds : List ReadRound) : List UInt8 :=
  rounds.flatMap fun round =>
    match round.fill with
    | some (some (.data octets)) => octets
    | _ => []

/-- **The receive buffer becomes full and does not satisfy the read:** what it held, followed by what is
received, is as long as it can be, and the condition is not satisfied then. -/
def FillsUnsatisfied (iob : IOBufferLib) (s : ReadState) (rounds : List ReadRound) : Prop :=
  (s.buffer ++ roundOctets rounds).length = connIobSize ∧
    ∀ round ∈ rounds.getLast?, (eventConditionSatisfied iob
      { s with buffer := s.buffer ++ roundOctets rounds } round.layout).1 = false

section Assertion

variable {iob : IOBufferLib} {s s' : ReadState} {c : ReadCall}

/-- The pattern of a read that is accepted is not longer than the event has room for. -/
theorem ReadCall.Builds.pattern_le (h : c.Builds s.event) (ht : s.event.type = .readUntilPattern) :
    s.event.pattern.length ≤ maxPatternSize := by
  have hacc := h.accepted
  rw [h.type] at ht
  simp only [ReadCall.accepted, ht, ne_eq, not_true_eq_false, decide_false, Bool.false_or,
    Bool.and_eq_true, decide_eq_true_eq] at hacc
  rw [h.pattern]
  omega

/-- The type of a read the API builds. -/
theorem ReadCall.Builds.type_cases (h : c.Builds s.event) :
    s.event.type = .read ∨ s.event.type = .readCount ∨ s.event.type = .readUntilPattern := by
  rw [h.type]
  cases h.api
  all_goals first | exact .inl rfl | exact .inr (.inl rfl) | exact .inr (.inr rfl)

/-- A read that asks for more has an unsatisfied condition. -/
theorem satisfyEvent_moreData {layout : ℕ}
    (hsat : satisfyEvent iob s layout = (Errno.econnmoredata, s')) :
    (eventConditionSatisfied iob s layout).1 = false ∧
      s.movePartialConditionalDataToClient (eventConditionSatisfied iob s layout).2.1 =
        (Errno.econnmoredata, s') := by
  rw [satisfyEvent_eq] at hsat
  split at hsat
  next count patternLen _ =>
    have hsame := (moveFinal_final (s := s) count patternLen).error
    rw [hsat] at hsame
    rcases hsame with h | h
    · exact absurd h (by decide : Errno.econnmoredata ≠ 0)
    · exact absurd h (by decide : Errno.econnmoredata ≠ Errno.emsgsize)
  next count _ heq =>
    rw [heq]
    exact ⟨rfl, hsat⟩

/-- A read that does not remove leaves the buffer alone. -/
theorem movePartial_keeps (hdelete : s.event.dataMode.delete = false) (count : ℕ) :
    s.movePartialConditionalDataToClient count = (Errno.econnmoredata, s) := by
  simp [ReadState.movePartialConditionalDataToClient, hdelete]

/-- **A read that removes makes room when it asks for more (proved).** -/
theorem movePartial_makesRoom (hbuild : c.Builds s.event) (hmoves : MovesWhenFull iob)
    (hbuf : s.buffer.length ≤ connIobSize) (hdelete : s.event.dataMode.delete = true) {layout : ℕ}
    (hsat : satisfyEvent iob s layout = (Errno.econnmoredata, s')) : s'.buffer.length < connIobSize := by
  obtain ⟨hunsat, hmove⟩ := satisfyEvent_moreData hsat
  have hpos : 0 < connIobSize := by decide
  -- what the condition leaves to be moved is not zero when the buffer is full
  have hcount : s.buffer.length = connIobSize →
      0 < (eventConditionSatisfied iob s layout).2.1 := by
    intro hfull
    have hne : s.buffer ≠ [] := List.length_pos_iff.mp (by omega)
    have hused := iob.getUsed_pos layout s.buffer hne
    rcases hbuild.type_cases with ht | ht | ht
    · simp only [eventConditionSatisfied, ht, if_pos hused] at hunsat
      cases hunsat
    · simp only [eventConditionSatisfied, ht] at hunsat ⊢
      split at hunsat
      · cases hunsat
      next hshort =>
        rw [if_neg hshort]
        exact hused
    · simp only [eventConditionSatisfied, ht] at hunsat ⊢
      split at hunsat
      · cases hunsat
      next count hsearch =>
        refine hmoves layout _ s.buffer count (fun w hw => ?_) hsearch hfull
        split at hw <;> cases hw
        exact hbuild.pattern_le ht
  simp only [ReadState.movePartialConditionalDataToClient, hdelete, true_and] at hmove
  split at hmove
  next hmoved =>
    have hdrop : ∀ n, 0 < n → (s.buffer.drop n).length < connIobSize := by
      intro n hn
      rw [List.length_drop]
      omega
    split at hmove
    · simp only [Prod.mk.injEq] at hmove
      obtain ⟨herr, rfl⟩ := hmove
      split at herr
      · exact absurd herr (by decide)
      next hroom =>
        have hmin : min (eventConditionSatisfied iob s layout).2.1 s.event.remaining =
            (eventConditionSatisfied iob s layout).2.1 := Nat.min_eq_left (by omega)
        exact hdrop _ (by rw [hmin]; exact Nat.pos_of_ne_zero hmoved)
    · simp only [Prod.mk.injEq] at hmove
      obtain ⟨_, rfl⟩ := hmove
      exact hdrop _ (Nat.pos_of_ne_zero hmoved)
  next hnone =>
    simp only [Prod.mk.injEq] at hmove
    obtain ⟨_, rfl⟩ := hmove
    by_contra hfull
    exact hnone (Nat.pos_iff_ne_zero.mp (hcount (by omega)))

/-! ### The rounds of a peek -/

/-- A refill reports `ENOBUFS` exactly when the buffer is full. -/
theorem fillRecvBuffer_enobufs {answer : Option ReceiveAnswer} {err : Errno} {blockedOn : SocketEventType}
    (hfill : s.fillRecvBuffer answer = some (err, blockedOn, s')) :
    err = Errno.enobufs ↔ s.buffer.length = connIobSize := by
  unfold ReadState.fillRecvBuffer at hfill
  split at hfill
  · split at hfill <;> cases hfill
    next hfull => exact ⟨fun _ => hfull, fun _ => rfl⟩
  next octets =>
    split at hfill <;> cases hfill
    next hdata =>
      have hlen := List.length_pos_iff.mpr hdata.1
      constructor
      · exact fun h => absurd h (by decide)
      · intro hfull
        omega
  · split at hfill <;> cases hfill
    next hfails =>
      constructor
      · exact fun h => absurd (by simp [h]) hfails.2
      · intro hfull
        omega

/-- What a refill that succeeds has received. -/
theorem fillRecvBuffer_filled {answer : Option ReceiveAnswer} {blockedOn : SocketEventType}
    (hfill : s.fillRecvBuffer answer = some (0, blockedOn, s')) :
    ∃ octets, answer = some (.data octets) ∧
      s' = { s with buffer := s.buffer ++ octets, received := s.received ++ octets } := by
  unfold ReadState.fillRecvBuffer at hfill
  split at hfill
  · split at hfill <;> cases hfill
  next octets =>
    split at hfill <;> cases hfill
    exact ⟨octets, rfl, rfl⟩
  next error _ =>
    split at hfill
    next hfails =>
      simp only [Option.some.injEq, Prod.mk.injEq] at hfill
      exact absurd hfill.1 (fun h => hfails.2 (by simp [h]))
    · cases hfill

/-- A refill never overfills the buffer. -/
theorem fillRecvBuffer_le {answer : Option ReceiveAnswer} {err : Errno} {blockedOn : SocketEventType}
    (hbuf : s.buffer.length ≤ connIobSize) (hfill : s.fillRecvBuffer answer = some (err, blockedOn, s')) :
    s'.buffer.length ≤ connIobSize := by
  unfold ReadState.fillRecvBuffer at hfill
  split at hfill <;> split at hfill <;> cases hfill
  · exact hbuf
  next hdata =>
    rw [List.length_append]
    exact hdata.2
  · exact hbuf

/-- A refill that fails leaves the buffer alone. -/
theorem fillRecvBuffer_failed {answer : Option ReceiveAnswer} {err : Errno} {blockedOn : SocketEventType}
    (herr : err ≠ 0) (hfill : s.fillRecvBuffer answer = some (err, blockedOn, s')) :
    s' = s ∧ ∀ octets, answer ≠ some (.data octets) := by
  unfold ReadState.fillRecvBuffer at hfill
  split at hfill <;> split at hfill <;> cases hfill
  · exact ⟨rfl, fun _ h => by cases h⟩
  · exact absurd rfl herr
  · exact ⟨rfl, fun _ h => by cases h⟩

/-- The buffer that fills up is the one the next round goes on with. -/
theorem fillsUnsatisfied_cons {layout : ℕ} {octets : List UInt8} {rounds : List ReadRound}
    (hrounds : rounds ≠ []) :
    FillsUnsatisfied iob s (⟨layout, some (some (.data octets))⟩ :: rounds) ↔
      FillsUnsatisfied iob { s with buffer := s.buffer ++ octets, received := s.received ++ octets }
        rounds := by
  have hocts : s.buffer ++ roundOctets (⟨layout, some (some (.data octets))⟩ :: rounds) =
      s.buffer ++ octets ++ roundOctets rounds := by
    simp [roundOctets]
  obtain ⟨first, rest, rfl⟩ := List.exists_cons_of_ne_nil hrounds
  simp only [FillsUnsatisfied, hocts, List.getLast?_cons_cons]
  constructor
  · rintro ⟨hlen, hlast⟩
    exact ⟨hlen, fun round hround => hlast round hround⟩
  · rintro ⟨hlen, hlast⟩
    exact ⟨hlen, fun round hround => hlast round hround⟩

/-- The buffer of the last round is full or not. -/
theorem fillsUnsatisfied_last {round : ReadRound} (h : ∀ octets, round.fill ≠ some (some (.data octets))) :
    FillsUnsatisfied iob s [round] ↔ s.buffer.length = connIobSize ∧
      (eventConditionSatisfied iob s round.layout).1 = false := by
  have hocts : roundOctets [round] = [] := by
    simp only [roundOctets, List.flatMap_singleton]
  simp only [FillsUnsatisfied, hocts, List.append_nil, List.getLast?_singleton, Option.mem_def,
    Option.some.injEq, forall_eq']

/-- **A peek reaches the assertion exactly when its buffer fills up (proved).** -/
theorem peek_asserted : ∀ {rounds : List ReadRound} {s : ReadState} {r : ReadReturn},
    s.event.dataMode.copy = true → s.event.dataMode.delete = false →
      conditionalReadProcess iob s rounds = some r →
        (r.asserted = some Errno.enobufs ↔ FillsUnsatisfied iob s rounds)
  | [], _, _, _, _, hrun => by cases hrun
  | round :: rounds, s, r, hcopy, hdelete, hrun => by
    unfold conditionalReadProcess at hrun
    split at hrun
    next err s' hsat =>
      split at hrun
      next hnone =>
        -- the condition is satisfied
        split at hrun
        next hend =>
          obtain ⟨herr, rfl⟩ := hend
          cases hrun
          rw [fillsUnsatisfied_last (by simp [hnone])]
          constructor
          · exact fun h => by cases h
          · rintro ⟨_, hunsat⟩
            have hmove : satisfyEvent iob s round.layout = (Errno.econnmoredata, s) := by
              rw [satisfyEvent_eq]
              split
              next heq =>
                rw [heq] at hunsat
                cases hunsat
              · exact movePartial_keeps hdelete _
            rw [hmove] at hsat
            cases hsat
            exact absurd rfl herr
        · cases hrun
      next answer hanswer =>
        split at hrun
        next herr =>
          subst herr
          obtain ⟨hunsat, hmove⟩ := satisfyEvent_moreData hsat
          rw [movePartial_keeps hdelete] at hmove
          cases hmove
          split at hrun
          · cases hrun
          next s'' hfill =>
            obtain ⟨octets, rfl, rfl⟩ := fillRecvBuffer_filled hfill
            have hne : rounds ≠ [] := by
              rintro rfl
              cases hrun
            have hround : round = ⟨round.layout, some (some (.data octets))⟩ := by
              rw [← hanswer]
            rw [hround, fillsUnsatisfied_cons hne]
            exact peek_asserted hcopy hdelete hrun
          next err' blockedOn s'' hne hfill =>
            split at hrun <;> cases hrun
            next hend =>
              subst hend
              have herr' : err' ≠ 0 := fun h => hne h
              obtain ⟨rfl, hanswers⟩ := fillRecvBuffer_failed herr' hfill
              rw [fillsUnsatisfied_last (by simpa [hanswer] using hanswers)]
              have hassert : (refillFailed iob s'' round.layout err' blockedOn).asserted = some err' := by
                unfold refillFailed
                rw [if_neg (by simp [hcopy])]
              rw [hassert, Option.some.injEq]
              rw [fillRecvBuffer_enobufs hfill]
              exact ⟨fun hfull => ⟨hfull, hunsat⟩, fun hfull => hfull.1⟩
        · cases hrun

/-! ### The other reads -/

/-- A read that is not satisfied is still the read that was built. -/
theorem ReadCall.Builds.same (h : c.Builds s.event) (hsame : s.SameRead s') : c.Builds s'.event :=
  ⟨h.api, h.accepted, hsame.type.trans h.type, hsame.dataMode.trans h.dataMode,
    hsame.pattern.trans h.pattern⟩

/-- What the assertion sees when a refill has failed. -/
theorem refillFailed_asserted {layout : ℕ} {err : Errno} {blockedOn : SocketEventType}
    (h : err ≠ Errno.enobufs ∨ s.event.dataMode.copy = false ∧ s.event.dataMode.delete = false) :
    (refillFailed iob s layout err blockedOn).asserted ≠ some Errno.enobufs := by
  unfold refillFailed
  split
  · exact fun h => by cases h
  next hnot =>
    intro hassert
    simp only [Option.some.injEq] at hassert
    rcases h with h | h
    · exact h hassert
    · exact hnot ⟨hassert, h⟩

/-- **A read that removes, or that only tests, never reaches the assertion with `ENOBUFS` (proved).** -/
theorem notPeek_asserted (hmoves : MovesWhenFull iob) : ∀ {rounds : List ReadRound} {s : ReadState}
    {r : ReadReturn}, c.Builds s.event → s.buffer.length ≤ connIobSize →
      s.event.dataMode.delete = true ∨ s.event.dataMode.copy = false →
        conditionalReadProcess iob s rounds = some r → r.asserted ≠ some Errno.enobufs
  | [], _, _, _, _, _, hrun => by cases hrun
  | round :: rounds, s, r, hbuild, hbuf, hmode, hrun => by
    unfold conditionalReadProcess at hrun
    split at hrun
    next err s' hsat =>
      split at hrun
      · split at hrun <;> cases hrun
        exact fun h => by cases h
      next answer =>
        split at hrun
        next herr =>
          subst herr
          have hsame := satisfyEvent_same hsat
          -- only a read that removes has a buffer of its own making after a round
          have hbuf' : s'.buffer.length ≤ connIobSize := by
            by_cases hdelete : s.event.dataMode.delete = true
            · exact Nat.le_of_lt (movePartial_makesRoom hbuild hmoves hbuf hdelete hsat)
            · obtain ⟨_, hmove⟩ := satisfyEvent_moreData hsat
              rw [movePartial_keeps (Bool.not_eq_true _ ▸ hdelete)] at hmove
              cases hmove
              exact hbuf
          split at hrun
          · cases hrun
          next s'' hfill =>
            refine notPeek_asserted hmoves ?_ ?_ ?_ hrun
            · rw [fillRecvBuffer_event hfill]
              exact hbuild.same hsame
            · exact fillRecvBuffer_le hbuf' hfill
            · rw [fillRecvBuffer_event hfill, hsame.dataMode]
              exact hmode
          next err' blockedOn s'' _ hfill =>
            split at hrun <;> cases hrun
            apply refillFailed_asserted
            rw [fillRecvBuffer_event hfill, hsame.dataMode]
            by_cases hdelete : s.event.dataMode.delete = true
            · left
              intro henobufs
              have hfull := (fillRecvBuffer_enobufs hfill).mp henobufs
              have hroom := movePartial_makesRoom hbuild hmoves hbuf hdelete hsat
              omega
            · right
              exact ⟨hmode.resolve_left hdelete, Bool.not_eq_true _ ▸ hdelete⟩
        · cases hrun

/-- **The fatal assertion (proved):** it fails for a peek whose buffer fills up before the condition is
satisfied, and for no other read the API builds. -/
theorem conditionalReadProcess_asserted {rounds : List ReadRound} {r : ReadReturn}
    (hbuild : c.Builds s.event) (hmoves : MovesWhenFull iob) (hbuf : s.buffer.length ≤ connIobSize)
    (hrun : conditionalReadProcess iob s rounds = some r) :
    r.asserted ≠ some Errno.enobufs ↔ ¬ (c.dataMode.peeks = true ∧ FillsUnsatisfied iob s rounds) := by
  have hpeeks : c.dataMode.peeks = true ↔
      s.event.dataMode.copy = true ∧ s.event.dataMode.delete = false := by
    rw [hbuild.dataMode]
    simp [DataMode.peeks]
  rw [hpeeks]
  by_cases hpeek : s.event.dataMode.copy = true ∧ s.event.dataMode.delete = false
  · rw [not_iff_not, peek_asserted hpeek.1 hpeek.2 hrun]
    exact ⟨fun h => ⟨hpeek, h⟩, fun h => h.2⟩
  · have hmode : s.event.dataMode.delete = true ∨ s.event.dataMode.copy = false := by
      cases hc : s.event.dataMode.copy
      · exact .inr rfl
      · cases hd : s.event.dataMode.delete
        · exact absurd ⟨hc, hd⟩ hpeek
        · exact .inl rfl
    exact ⟨fun _ h => hpeek h.1, fun _ => notPeek_asserted hmoves hbuild hbuf hmode hrun⟩

end Assertion

/-! ### A peek at a long line -/

/-- The ring buffer of one piece moves what cannot belong to a match. -/
theorem onePiece_movesWhenFull : MovesWhenFull .onePiece := by
  intro layout pattern b count hpattern hsearch hfull
  simp only [IOBufferLib.onePiece] at hsearch
  split at hsearch <;> cases hsearch
  have hlen : (pattern.getD [13, 10]).length ≤ maxPatternSize := by
    cases pattern with
    | none => decide
    | some w => exact hpattern w rfl
  have hsizes : maxPatternSize < connIobSize := by decide
  omega

/-- The event of `ConnAPeekLine` for a client's buffer of 100 octets. -/
def peekLine : ReadEvent :=
  connEventAssign .readUntilPattern { copy := true, terminate := true } newline 100

theorem peekLine_builds : (connAPeekLineEx ⟨true, 100⟩).Builds peekLine :=
  ⟨.connAPeekLine _, by decide, rfl, rfl, rfl⟩

/-- The line `a\n`, peeked at. -/
theorem conditionalReadProcess_asserted_line : ∃ r : ReadReturn,
    conditionalReadProcess .onePiece ⟨peekLine, [97], [97]⟩
      [⟨0, some (some (.data [10]))⟩, ⟨0, none⟩] = some r ∧
        r.asserted ≠ some Errno.enobufs := by
  have hrun : conditionalReadProcess .onePiece ⟨peekLine, [97], [97]⟩
      [⟨0, some (some (.data [10]))⟩, ⟨0, none⟩] = some
        { error := 0
          blockedOn := .none
          state := ⟨{ peekLine with remaining := 99, transferred := 1, delivered := [97], terminated := true },
            [97, 10], [97, 10]⟩ } := by decide
  refine ⟨_, hrun, (conditionalReadProcess_asserted peekLine_builds onePiece_movesWhenFull (by decide)
    hrun).mpr ?_⟩
  rintro ⟨_, hlen, _⟩
  exact absurd hlen (by decide)

section LongLine

variable {line : List UInt8}

/-- A line without a newline does not satisfy the peek. -/
theorem longLine_unsatisfied (hnone : firstMatch newline line = none) (received : List UInt8) :
    satisfyEvent .onePiece ⟨peekLine, line, received⟩ 0 =
      (Errno.econnmoredata, ⟨peekLine, line, received⟩) := by
  have hsearch : IOBufferLib.onePiece.search 0 (some newline) line =
      .notFound (line.length - (newline.length - 1)) := by
    simp only [IOBufferLib.onePiece, Option.getD_some, hnone]
  have htype : peekLine.type = .readUntilPattern := rfl
  have hpattern : (if peekLine.pattern = specialPatternCRLF then none else some peekLine.pattern) =
      some newline := by decide
  rw [satisfyEvent_eq]
  simp only [eventConditionSatisfied, htype, hpattern, hsearch]
  exact movePartial_keeps rfl _

/-- The peek receives such a line into the empty buffer, and wants more when the buffer is full. -/
theorem longLine_run (hlen : line.length = connIobSize) (hnone : firstMatch newline line = none) :
    conditionalReadProcess .onePiece ⟨peekLine, [], []⟩
      [⟨0, some (some (.data line))⟩, ⟨0, some none⟩] =
        some (refillFailed .onePiece ⟨peekLine, line, line⟩ 0 Errno.enobufs .none) := by
  have hsize : 0 < connIobSize := by decide
  have hfirst : satisfyEvent .onePiece ⟨peekLine, [], []⟩ 0 =
      (Errno.econnmoredata, ⟨peekLine, [], []⟩) := longLine_unsatisfied rfl []
  have hfill : (ReadState.mk peekLine [] []).fillRecvBuffer (some (.data line)) =
      some (0, .none, ⟨peekLine, line, line⟩) := by
    have hne : line ≠ [] := List.ne_nil_of_length_pos (by omega)
    have hfits : ([] : List UInt8).length + line.length ≤ connIobSize := by
      rw [List.length_nil]
      omega
    simp only [ReadState.fillRecvBuffer]
    rw [if_pos ⟨hne, hfits⟩]
    rfl
  have hsecond := longLine_unsatisfied hnone line
  have hfull : (ReadState.mk peekLine line line).fillRecvBuffer none =
      some (Errno.enobufs, .none, ⟨peekLine, line, line⟩) := if_pos hlen
  simp only [conditionalReadProcess, hfirst, hfill, hsecond, hfull, if_true]
  rfl

end LongLine

/-- **The peer sends a line that is longer than the receive buffer.** -/
theorem conditionalReadProcess_asserts : ¬ ∀ (iob : IOBufferLib) (c : ReadCall) (s : ReadState)
    (rounds : List ReadRound) (r : ReadReturn), c.Builds s.event → MovesWhenFull iob →
      s.buffer.length ≤ connIobSize → conditionalReadProcess iob s rounds = some r →
        r.asserted ≠ some Errno.enobufs := by
  intro h
  have hnone : firstMatch newline (List.replicate connIobSize 97) = none := by
    refine firstMatch_eq_none.mpr fun p _ hmatch => ?_
    rw [List.drop_replicate] at hmatch
    have hmem := hmatch.subset (List.mem_singleton.mpr rfl)
    exact absurd (List.eq_of_mem_replicate hmem) (by decide)
  refine h _ _ _ _ _ peekLine_builds onePiece_movesWhenFull (Nat.zero_le _)
    (longLine_run List.length_replicate hnone) ?_
  unfold refillFailed
  rw [if_neg (by simp [peekLine, connEventAssign])]

end Connio
