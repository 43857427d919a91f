import Connio.Read

/-!
# A pattern read does not see how the stream is split

`READ_UNTIL_PATTERN` is compared with one look at the whole stream.

* `FirstMatchSearch` — what `IOBSearch` reports, in terms of the matches of the stream;
* `patternOutcome` — what a read of `remaining` octets makes of a stream: all up to the first match, or as
  much as the client's buffer takes;
* `readRun` — one read, processed again each time it blocked;
* `readRun_outcome` — **PROVED**: a read that ends with a match or with `EMSGSIZE` does what
  `patternOutcome` says, whatever the splits;
* `readRun_split` — **PROVED**: two such reads of one stream give the same result and leave the same rest.
-/

namespace Connio

open Connio.Lib

/-- **`IOBSearch` reports the first match, or octets in which no match begins.** -/
structure FirstMatchSearch (iob : IOBufferLib) (matcher : Option (List UInt8) → Matcher UInt8) :
    Prop where
  found : ∀ {layout pattern b count patternLen},
    iob.search layout pattern b = .found count patternLen →
      (matcher pattern).firstMatch b = some (count, patternLen)
  notFound : ∀ {layout pattern b count}, iob.search layout pattern b = .notFound count →
    (matcher pattern).NoneBefore b count

/-- The pattern `IOBSearch` is given. -/
def ReadEvent.searched (e : ReadEvent) : Option (List UInt8) :=
  if e.pattern = specialPatternCRLF then none else some e.pattern

/-! ### One look at the whole stream -/

/-- What a read leaves behind. -/
structure ReadOutcome where
  error : Errno
  delivered : List UInt8
  terminated : Bool
  unread : List UInt8
  deriving DecidableEq, Repr

/-- **The outcome of a pattern read** with room for `remaining` octets. -/
def patternOutcome (m : Matcher UInt8) (mode : DataMode) (remaining : ℕ) (stream : List UInt8) :
    ReadOutcome :=
  match m.firstMatch stream with
  | some (p, l) =>
    if remaining < p + mode.roomAfter l then
      ⟨Errno.emsgsize, stream.take (min p remaining), false, stream.drop (min p remaining)⟩
    else
      ⟨0, stream.take (if mode.includePattern then p + l else p), mode.terminate, stream.drop (p + l)⟩
  | none => ⟨Errno.emsgsize, stream.take remaining, false, stream.drop remaining⟩

/-- Octets that were moved out early. -/
def ReadOutcome.after (moved : List UInt8) (o : ReadOutcome) : ReadOutcome :=
  { o with delivered := moved ++ o.delivered }

section Matching

variable {m : Matcher UInt8} {mode : DataMode} {remaining count : ℕ} {b t : List UInt8}

/-- **Octets in which no match begins may be moved out early.** -/
theorem patternOutcome_drop (mode : DataMode) (t : List UInt8) (hnone : m.NoneBefore b count) (hle : count ≤ remaining) :
    patternOutcome m mode remaining (b ++ t) =
      (patternOutcome m mode (remaining - count) ((b ++ t).drop count)).after ((b ++ t).take count) := by
  have htake : ∀ n, count ≤ n →
      (b ++ t).take count ++ ((b ++ t).drop count).take (n - count) = (b ++ t).take n := by
    intro n hn
    rw [← List.take_add, Nat.add_sub_cancel' hn]
  have hdrop : ∀ n, count ≤ n → ((b ++ t).drop count).drop (n - count) = (b ++ t).drop n := by
    intro n hn
    rw [List.drop_drop, Nat.add_sub_cancel' hn]
  unfold patternOutcome
  rw [Matcher.firstMatch_append_drop hnone]
  cases hm : m.firstMatch (b ++ t) with
  | none => simp only [Option.map_none, ReadOutcome.after, htake _ hle, hdrop _ hle]
  | some r =>
    obtain ⟨p, l⟩ := r
    have hp : count ≤ p := hnone t p l hm
    simp only [Option.map_some]
    by_cases hroom : remaining < p + mode.roomAfter l
    · have hroom' : remaining - count < p - count + mode.roomAfter l := by omega
      have hmin : min (p - count) (remaining - count) = min p remaining - count := by omega
      have hle' : count ≤ min p remaining := Nat.le_min.mpr ⟨hp, hle⟩
      simp only [if_pos hroom, if_pos hroom', ReadOutcome.after, hmin, htake _ hle', hdrop _ hle']
    · have hroom' : ¬ remaining - count < p - count + mode.roomAfter l := by omega
      have hend : p - count + l = p + l - count := by omega
      have hif : (if mode.includePattern then p + l - count else p - count) =
          (if mode.includePattern then p + l else p) - count := by split <;> rfl
      have hle' : count ≤ if mode.includePattern then p + l else p := by split <;> omega
      have hle'' : count ≤ p + l := by omega
      simp only [if_neg hroom, if_neg hroom', ReadOutcome.after, hend, hif, htake _ hle', hdrop _ hle'']

/-- More octets without a match than the client's buffer takes. -/
theorem patternOutcome_full (hnone : m.NoneBefore b count) (hlt : remaining < count) :
    patternOutcome m mode remaining (b ++ t) =
      ⟨Errno.emsgsize, (b ++ t).take remaining, false, (b ++ t).drop remaining⟩ := by
  unfold patternOutcome
  cases hm : m.firstMatch (b ++ t) with
  | none => rfl
  | some r =>
    obtain ⟨p, l⟩ := r
    have hp : count ≤ p := hnone t p l hm
    have hmin : min p remaining = remaining := Nat.min_eq_right (by omega)
    simp only []
    rw [if_pos (by omega), hmin]

end Matching

/-! ### One read -/

/-- A consuming pattern read that has not ended. -/
structure PatternRead (s : ReadState) : Prop where
  type : s.event.type = .readUntilPattern
  copy : s.event.dataMode.copy = true
  delete : s.event.dataMode.delete = true
  replace : s.event.dataMode.replacePattern = false
  terminated : s.event.terminated = false

/-- `EventProcess` has reached the end of the read: the pattern, or the end of the client's buffer. -/
def ReadReturn.Ended (r : ReadReturn) : Prop := r.error = 0 ∨ r.error = Errno.emsgsize

/-- What a read leaves behind when `rest` has not been received. -/
def ReadState.outcome (s : ReadState) (error : Errno) (rest : List UInt8) : ReadOutcome :=
  ⟨error, s.event.delivered, s.event.terminated, s.buffer ++ rest⟩

/-- What a read will leave behind when `rest` is still to come. -/
def ReadState.expected (matcher : Option (List UInt8) → Matcher UInt8) (s : ReadState)
    (rest : List UInt8) : ReadOutcome :=
  (patternOutcome (matcher s.event.searched) s.event.dataMode s.event.remaining
    (s.buffer ++ rest)).after s.event.delivered

section Read

variable {iob : IOBufferLib} {matcher : Option (List UInt8) → Matcher UInt8} {s s' : ReadState}

/-- What is known when `SatisfyEvent` has returned `err`. -/
structure Satisfied (matcher : Option (List UInt8) → Matcher UInt8) (s s' : ReadState) (err : Errno) :
    Prop where
  received : s'.received = s.received
  dataMode : s'.event.dataMode = s.event.dataMode
  ended : err ≠ Errno.econnmoredata →
    (err = 0 ∨ err = Errno.emsgsize) ∧ ∀ rest, s'.outcome err rest = s.expected matcher rest
  goesOn : err = Errno.econnmoredata →
    PatternRead s' ∧ ∀ rest, s'.expected matcher rest = s.expected matcher rest

theorem take_append_of_le {b : List UInt8} {n : ℕ} (rest : List UInt8) (h : n ≤ b.length) :
    b.take n = (b ++ rest).take n := (List.take_append_of_le_length h).symm

theorem drop_append_of_le {b rest : List UInt8} {n : ℕ} (h : n ≤ b.length) :
    b.drop n ++ rest = (b ++ rest).drop n := (List.drop_append_of_le_length h).symm

/-- The first match is in the buffer. -/
theorem satisfied_found (hs : PatternRead s) {count patternLen : ℕ} {err : Errno}
    (hm : (matcher s.event.searched).firstMatch s.buffer = some (count, patternLen))
    (hmove : s.moveFinalConditionalDataToClient count patternLen = (err, s')) :
    Satisfied matcher s s' err := by
  have hle := (matcher s.event.searched).le hm
  have hstream : ∀ rest, (matcher s.event.searched).firstMatch (s.buffer ++ rest) =
      some (count, patternLen) := fun rest => (matcher s.event.searched).extend rest hm
  rw [moveFinal_eq hs.copy hs.delete hs.replace] at hmove
  split at hmove
  next hroom =>
    cases hmove
    refine ⟨rfl, rfl, fun _ => ⟨.inr rfl, fun rest => ?_⟩, fun h => absurd h (by decide)⟩
    have hmin : min count s.event.remaining ≤ s.buffer.length :=
      Nat.le_trans (Nat.min_le_left _ _) (by omega)
    simp only [ReadState.expected, patternOutcome, hstream rest, if_pos hroom, ReadOutcome.after,
      ReadState.outcome, ReadState.copyBufferedDataToClient, ReadState.markFree, hs.terminated,
      take_append_of_le rest hmin, drop_append_of_le hmin]
  next hroom =>
    cases hmove
    refine ⟨?_, ?_, fun _ => ⟨.inl rfl, fun rest => ?_⟩, fun h => absurd h (by decide)⟩
    · unfold ReadState.completed
      split <;> split <;> rfl
    · unfold ReadState.completed
      split <;> split <;> rfl
    · have hcount : count ≤ s.buffer.length := by omega
      cases hi : s.event.dataMode.includePattern <;> cases ht : s.event.dataMode.terminate <;>
        simp only [ReadState.expected, patternOutcome, hstream rest, if_neg hroom, ReadOutcome.after,
          ReadState.outcome, ReadState.completed, ReadState.copyBufferedDataToClient,
          ReadState.removePattern, ReadState.markFree, ReadState.terminateClientBuffer, hs.terminated,
          hi, ht, if_true, Bool.false_eq_true, if_false, take_append_of_le rest hle,
          take_append_of_le rest hcount, drop_append_of_le hle]

/-- No match begins in the octets that are moved. -/
theorem satisfied_notFound (hs : PatternRead s) {count : ℕ} {err : Errno} (hle : count ≤ s.buffer.length)
    (hnone : (matcher s.event.searched).NoneBefore s.buffer count)
    (hmove : s.movePartialConditionalDataToClient count = (err, s')) : Satisfied matcher s s' err := by
  simp only [ReadState.movePartialConditionalDataToClient, hs.delete, hs.copy, true_and, if_true] at hmove
  split at hmove
  · by_cases hroom : s.event.remaining < count
    · rw [if_pos hroom] at hmove
      cases hmove
      refine ⟨rfl, rfl, fun _ => ⟨.inr rfl, fun rest => ?_⟩, fun h => absurd h (by decide)⟩
      have hmin : min count s.event.remaining = s.event.remaining := Nat.min_eq_right (by omega)
      have hle' : s.event.remaining ≤ s.buffer.length := by omega
      simp only [ReadState.expected, patternOutcome_full hnone hroom, ReadOutcome.after, ReadState.outcome,
        ReadState.copyBufferedDataToClient, ReadState.markFree, hs.terminated, hmin,
        take_append_of_le rest hle', drop_append_of_le hle']
    · rw [if_neg hroom] at hmove
      cases hmove
      have hmin : min count s.event.remaining = count := Nat.min_eq_left (by omega)
      have hlen : ∀ rest : List UInt8, ((s.buffer ++ rest).take count).length = count := by
        intro rest
        rw [List.length_take, List.length_append]
        omega
      refine ⟨rfl, rfl, fun h => absurd rfl h, fun _ => ⟨⟨hs.type, hs.copy, hs.delete, hs.replace,
        hs.terminated⟩, fun rest => ?_⟩⟩
      have hdrop := patternOutcome_drop s.event.dataMode rest hnone
        (Nat.le_of_not_lt hroom)
      simp only [ReadState.expected, ReadState.copyBufferedDataToClient, ReadState.markFree, hmin, hlen,
        drop_append_of_le hle, hdrop, ReadOutcome.after, take_append_of_le rest hle, List.append_assoc]
      rfl
  · cases hmove
    exact ⟨rfl, rfl, fun h => absurd rfl h, fun _ => ⟨hs, fun _ => rfl⟩⟩

theorem satisfyEvent_satisfied (hsearch : FirstMatchSearch iob matcher) (hs : PatternRead s)
    {layout : ℕ} {err : Errno} (hsat : satisfyEvent iob s layout = (err, s')) :
    Satisfied matcher s s' err := by
  rw [satisfyEvent_eq, eventConditionSatisfied] at hsat
  simp only [hs.type] at hsat
  split at hsat
  next count patternLen heq =>
    split at heq <;> cases heq
    next hfound => exact satisfied_found hs (hsearch.found hfound) hsat
  next count _ heq =>
    split at heq <;> cases heq
    next hnotFound =>
      exact satisfied_notFound hs (iob.search_notFound _ _ _ _ hnotFound) (hsearch.notFound hnotFound)
        hsat

/-- **What is known of a process function that has returned.** -/
structure RunSpec (matcher : Option (List UInt8) → Matcher UInt8) (s : ReadState) (r : ReadReturn)
    (new : List UInt8) : Prop where
  received : r.state.received = s.received ++ new
  dataMode : r.state.event.dataMode = s.event.dataMode
  ended : r.Ended → ∀ rest, r.state.outcome r.error rest = s.expected matcher (new ++ rest)
  goesOn : ¬ r.Ended → PatternRead r.state ∧
    ∀ rest, r.state.expected matcher rest = s.expected matcher (new ++ rest)

/-- The octets of a refill were still to come. -/
theorem fillRecvBuffer_received (matcher : Option (List UInt8) → Matcher UInt8) {answer : Option ReceiveAnswer}
    {err : Errno}
    {blockedOn : SocketEventType} (hfill : s.fillRecvBuffer answer = some (err, blockedOn, s')) :
    err ≠ Errno.emsgsize ∧ ∃ new, s'.received = s.received ++ new ∧ s'.event = s.event ∧
      ∀ rest, s'.expected matcher rest = s.expected matcher (new ++ rest) := by
  unfold ReadState.fillRecvBuffer at hfill
  split at hfill
  · split at hfill <;> cases hfill
    exact ⟨by decide, [], (List.append_nil _).symm, rfl, fun _ => rfl⟩
  next octets =>
    split at hfill <;> cases hfill
    refine ⟨by decide, octets, rfl, rfl, fun rest => ?_⟩
    simp only [ReadState.expected, List.append_assoc]
  · split at hfill <;> cases hfill
    next hok =>
      refine ⟨?_, [], (List.append_nil _).symm, rfl, fun _ => rfl⟩
      rintro rfl
      exact hok.2 (by decide)

theorem PatternRead.of_event (h : PatternRead s) (heq : s'.event = s.event) : PatternRead s' :=
  ⟨heq ▸ h.type, heq ▸ h.copy, heq ▸ h.delete, heq ▸ h.replace, heq ▸ h.terminated⟩

/-- A state that expects the same goes on. -/
theorem RunSpec.after {s₁ : ReadState} {r : ReadReturn} {new new' : List UInt8}
    (hreceived : s₁.received = s.received ++ new)
    (hmode : s₁.event.dataMode = s.event.dataMode)
    (hexpected : ∀ rest, s₁.expected matcher rest = s.expected matcher (new ++ rest))
    (h : RunSpec matcher s₁ r new') : RunSpec matcher s r (new ++ new') := by
  refine ⟨?_, h.dataMode.trans hmode, fun hended rest => ?_,
    fun hnot => ⟨(h.goesOn hnot).1, fun rest => ?_⟩⟩
  · rw [h.received, hreceived, List.append_assoc]
  · rw [h.ended hended rest, hexpected, List.append_assoc]
  · rw [(h.goesOn hnot).2 rest, hexpected, List.append_assoc]

/-- A refill that fails. -/
theorem RunSpec.failed (hs : PatternRead s) {err : Errno} (h0 : err ≠ 0) (he : err ≠ Errno.emsgsize)
    (blockedOn : SocketEventType) (asserted : Option Errno) :
    RunSpec matcher s ⟨err, blockedOn, s, asserted⟩ [] := by
  have hnot : ¬ ReadReturn.Ended ⟨err, blockedOn, s, asserted⟩ := fun h => h.elim h0 he
  exact ⟨(List.append_nil _).symm, rfl, fun h => absurd h hnot, fun _ => ⟨hs, fun _ => rfl⟩⟩

theorem conditionalReadProcess_outcome (hsearch : FirstMatchSearch iob matcher) :
    ∀ {rounds : List ReadRound} {s : ReadState} {r : ReadReturn}, PatternRead s →
      conditionalReadProcess iob s rounds = some r → ∃ new, RunSpec matcher s r new
  | [], _, _, _, hrun => by cases hrun
  | round :: rounds, s, r, hs, hrun => by
    unfold conditionalReadProcess at hrun
    split at hrun
    next err s₁ hsat =>
      have hsatisfied := satisfyEvent_satisfied hsearch hs hsat
      split at hrun
      · split at hrun <;> cases hrun
        next hend =>
          obtain ⟨herr, hout⟩ := hsatisfied.ended hend.1
          exact ⟨[], by rw [List.append_nil]; exact hsatisfied.received, hsatisfied.dataMode,
            fun _ rest => hout rest, fun hnot => absurd herr hnot⟩
      next answer =>
        split at hrun
        next herr =>
          obtain ⟨hs₁, hexp₁⟩ := hsatisfied.goesOn herr
          split at hrun
          · cases hrun
          next s₂ hfill =>
            obtain ⟨_, new, hrec, hevent, hexp₂⟩ := fillRecvBuffer_received matcher hfill
            obtain ⟨new', hrest⟩ :=
              conditionalReadProcess_outcome hsearch (hs₁.of_event hevent) hrun
            refine ⟨new ++ new', hrest.after ?_ ?_ fun rest => ?_⟩
            · rw [hrec, hsatisfied.received]
            · rw [hevent, hsatisfied.dataMode]
            · rw [hexp₂, hexp₁]
          next err₂ blockedOn s₂ h0 hfill =>
            obtain ⟨he, new, hrec, hevent, hexp₂⟩ := fillRecvBuffer_received matcher hfill
            have hs₂ := hs₁.of_event hevent
            split at hrun <;> cases hrun
            have hno : ¬ (err₂ = Errno.enobufs ∧ s₂.event.dataMode.copy = false ∧
                s₂.event.dataMode.delete = false) := by
              rintro ⟨_, hfalse, _⟩
              rw [hs₂.copy] at hfalse
              cases hfalse
            unfold refillFailed
            rw [if_neg hno]
            refine ⟨new ++ [], (RunSpec.failed hs₂ h0 he _ _).after ?_ ?_ fun rest => ?_⟩
            · rw [hrec, hsatisfied.received]
            · rw [hevent, hsatisfied.dataMode]
            · rw [hexp₂, hexp₁]
        · cases hrun

theorem socketEventProcess_outcome (hsearch : FirstMatchSearch iob matcher) (hs : PatternRead s)
    {input : ReadInput} {r : ReadReturn} (hrun : socketEventProcess iob s input = some r) :
    ∃ new, RunSpec matcher s r new := by
  have hprocess : ∀ {s : ReadState} {rounds : ReadRounds} {r : ReadReturn}, PatternRead s →
      readProcess iob s rounds = some r → ∃ new, RunSpec matcher s r new := by
    intro s rounds r hs hrun
    unfold readProcess at hrun
    rw [hs.type] at hrun
    split at hrun
    · contradiction
    · contradiction
    · exact conditionalReadProcess_outcome hsearch hs hrun
    · contradiction
    · contradiction
    · cases hrun
  unfold socketEventProcess at hrun
  split at hrun
  · exact hprocess hs hrun
  next resume rounds _ =>
    split at hrun
    next s₁ rounds hfill _ =>
      obtain ⟨_, new, hrec, hevent, hexp⟩ := fillRecvBuffer_received matcher hfill
      obtain ⟨new', hrest⟩ := hprocess (hs.of_event hevent) hrun
      exact ⟨new ++ new', hrest.after hrec (by rw [hevent]) hexp⟩
    next err blockedOn s₁ hfill _ =>
      obtain ⟨he, new, hrec, hevent, hexp⟩ := fillRecvBuffer_received matcher hfill
      have hs₁ := hs.of_event hevent
      split at hrun
      · cases hrun
      next h0 =>
        have hno : ¬ (err = Errno.enobufs ∧ s₁.event.dataMode.copy = false ∧
            s₁.event.dataMode.delete = false ∧ s₁.event.type ≠ .readToCb ∧
            s₁.event.type ≠ .readToConn) := by
          rintro ⟨_, hfalse, _⟩
          rw [hs₁.copy] at hfalse
          cases hfalse
        unfold resumeFailed at hrun
        rw [if_neg hno] at hrun
        cases hrun
        exact ⟨new ++ [], (RunSpec.failed hs₁ h0 he _ _).after hrec (by rw [hevent]) hexp⟩
    · cases hrun
  · cases hrun

end Read

/-! ### One read, however it blocks -/

/-- A read is processed again each time it would block. -/
def readRun (iob : IOBufferLib) : ReadState → List ReadInput → Option ReadReturn
  | _, [] => none
  | s, input :: inputs =>
    match socketEventProcess iob s input with
    | none => none
    | some r =>
      if inputs = [] then some r
      else if r.error = Errno.ewouldblock then
        readRun iob { r.state with event := { r.state.event with inProgress := true } } inputs
      else none

section Runs

variable {iob : IOBufferLib} {matcher : Option (List UInt8) → Matcher UInt8}

theorem readRun_spec (hsearch : FirstMatchSearch iob matcher) :
    ∀ {inputs : List ReadInput} {s : ReadState} {r : ReadReturn}, PatternRead s →
      readRun iob s inputs = some r → ∃ new, RunSpec matcher s r new
  | [], _, _, _, hrun => by cases hrun
  | input :: inputs, s, r, hs, hrun => by
    unfold readRun at hrun
    split at hrun
    · cases hrun
    next r₁ hr₁ =>
      obtain ⟨new, hspec⟩ := socketEventProcess_outcome hsearch hs hr₁
      split at hrun
      · cases hrun
        exact ⟨new, hspec⟩
      · split at hrun
        next hblock =>
          have hnot : ¬ r₁.Ended := by
            rintro (h | h) <;> rw [hblock] at h <;> exact absurd h (by decide)
          obtain ⟨hs₁, hexp⟩ := hspec.goesOn hnot
          obtain ⟨new', hrest⟩ := readRun_spec hsearch (s := { r₁.state with
            event := { r₁.state.event with inProgress := true } })
            ⟨hs₁.type, hs₁.copy, hs₁.delete, hs₁.replace, hs₁.terminated⟩ hrun
          refine ⟨new ++ new', hrest.after ?_ ?_ fun rest => ?_⟩
          · exact hspec.received
          · exact hspec.dataMode
          · exact hexp rest
        · cases hrun

/-- A pattern read that has just been assigned, on a conn whose receive buffer holds `buffer`. -/
def patternRead (mode : DataMode) (pattern : List UInt8) (size : ℕ) (buffer : List UInt8) : ReadState :=
  ⟨connEventAssign .readUntilPattern mode pattern size, buffer, buffer⟩

variable {mode : DataMode} {pattern : List UInt8} {size : ℕ}

/-- **A read that reaches its end does what one look at the stream says (proved),** whatever the splits. -/
theorem readRun_outcome (hsearch : FirstMatchSearch iob matcher) (hcopy : mode.copy = true)
    (hdelete : mode.delete = true) (hreplace : mode.replacePattern = false) {buffer rest : List UInt8}
    {inputs : List ReadInput} {r : ReadReturn}
    (hrun : readRun iob (patternRead mode pattern size buffer) inputs = some r) (hended : r.Ended) :
    r.state.outcome r.error rest =
      patternOutcome (matcher (connEventAssign .readUntilPattern mode pattern size).searched) mode size
        (r.state.received ++ rest) := by
  have hs : PatternRead (patternRead mode pattern size buffer) := ⟨rfl, hcopy, hdelete, hreplace, rfl⟩
  obtain ⟨new, hspec⟩ := readRun_spec hsearch hs hrun
  rw [hspec.ended hended rest, hspec.received, List.append_assoc]
  rfl

theorem readRun_transferred {past : List UInt8} : ∀ {inputs : List ReadInput} {s : ReadState}
    {r : ReadReturn}, ReadOpen past s → readRun iob s inputs = some r → ReadSpec past r
  | [], _, _, _, hrun => by cases hrun
  | input :: inputs, s, r, hs, hrun => by
    unfold readRun at hrun
    split at hrun
    · cases hrun
    next r₁ hr₁ =>
      have hspec := socketEventProcess_spec hs hr₁
      split at hrun
      · cases hrun
        exact hspec
      · split at hrun
        next hblock =>
          have hopen := hspec.goesOn (by rw [hblock]; decide)
          exact readRun_transferred (s := { r₁.state with
            event := { r₁.state.event with inProgress := true } })
            ⟨⟨hopen.stream, hopen.transferred⟩, hopen.removed, hopen.consuming⟩ hrun
        · cases hrun

/-- The status `EventProcess` returns. -/
def ReadReturn.status (r : ReadReturn) : ConnEventStatus :=
  if r.error = 0 then .complete
  else if r.error = Errno.etimedout then .timedOut
  else if r.error = Errno.emsgsize ∧ r.state.event.dataMode.partialOk then .partialResult
  else .failed

/-- **Two reads of one stream do not differ (proved):** the same status, error, count and octets, and the same
rest, however the two are split and wherever they block. -/
theorem readRun_split (hsearch : FirstMatchSearch iob matcher) (hcopy : mode.copy = true)
    (hdelete : mode.delete = true) (hreplace : mode.replacePattern = false)
    {buffer₁ buffer₂ rest₁ rest₂ : List UInt8} {inputs₁ inputs₂ : List ReadInput} {r₁ r₂ : ReadReturn}
    (hrun₁ : readRun iob (patternRead mode pattern size buffer₁) inputs₁ = some r₁)
    (hrun₂ : readRun iob (patternRead mode pattern size buffer₂) inputs₂ = some r₂)
    (hended₁ : r₁.Ended) (hended₂ : r₂.Ended)
    (hstream : r₁.state.received ++ rest₁ = r₂.state.received ++ rest₂) :
    r₁.status = r₂.status ∧ r₁.error = r₂.error ∧
      r₁.state.event.transferred = r₂.state.event.transferred ∧
      r₁.state.event.delivered = r₂.state.event.delivered ∧
      r₁.state.event.terminated = r₂.state.event.terminated ∧
      r₁.state.buffer ++ rest₁ = r₂.state.buffer ++ rest₂ := by
  have hsame : r₁.state.outcome r₁.error rest₁ = r₂.state.outcome r₂.error rest₂ := by
    rw [readRun_outcome hsearch hcopy hdelete hreplace hrun₁ hended₁,
      readRun_outcome hsearch hcopy hdelete hreplace hrun₂ hended₂, hstream]
  simp only [ReadState.outcome, ReadOutcome.mk.injEq] at hsame
  obtain ⟨herr, hdelivered, hterminated, hunread⟩ := hsame
  have hstart : ∀ buffer, PatternRead (patternRead mode pattern size buffer) :=
    fun _ => ⟨rfl, hcopy, hdelete, hreplace, rfl⟩
  have hopen : ∀ buffer, ReadOpen [] (patternRead mode pattern size buffer) :=
    fun _ => ⟨⟨rfl, rfl⟩, rfl, hcopy, hdelete, hreplace⟩
  have htransferred : r₁.state.event.transferred = r₂.state.event.transferred := by
    rw [(readRun_transferred (hopen _) hrun₁).inv.transferred,
      (readRun_transferred (hopen _) hrun₂).inv.transferred, hdelivered]
  have hstatus : r₁.status = r₂.status := by
    obtain ⟨_, hspec₁⟩ := readRun_spec hsearch (hstart _) hrun₁
    obtain ⟨_, hspec₂⟩ := readRun_spec hsearch (hstart _) hrun₂
    unfold ReadReturn.status
    rw [herr, hspec₁.dataMode, hspec₂.dataMode]
    rfl
  exact ⟨hstatus, herr, htransferred, hdelivered, hterminated, hunread⟩

end Runs

/-! ### A line in one piece and in three -/

theorem onePiece_firstMatchSearch :
    FirstMatchSearch .onePiece fun pattern => Matcher.literal (pattern.getD [13, 10]) where
  found := by
    intro layout pattern b count patternLen h
    simp only [IOBufferLib.onePiece] at h
    split at h <;> cases h
    next hm => simp only [Matcher.literal, hm, Option.map_some]
  notFound := by
    intro layout pattern b count h
    simp only [IOBufferLib.onePiece] at h
    split at h <;> cases h
    next hm =>
      by_cases hw : pattern.getD [13, 10] = []
      · rw [hw] at hm
        exact absurd hm (by cases b <;> simp [firstMatch])
      · exact noneBefore_literal hw hm

/-- A line of at most five octets, its end included, on a conn whose stream starts with `ab\r\ncd`. -/
def lineRead : ReadState :=
  patternRead { copy := true, delete := true, terminate := true, includePattern := true } [13, 10] 5 []

/-- What it returns; `unread` has been received. -/
def lineReturn (inProgress : Bool) (unread : List UInt8) : ReadReturn where
  error := 0
  blockedOn := .none
  state :=
    { event := { lineRead.event with
        remaining := 1
        transferred := 4
        inProgress := inProgress
        delivered := [97, 98, 13, 10]
        terminated := true }
      buffer := unread
      received := [97, 98, 13, 10] ++ unread }

/-- The stream in one piece, and split inside the pattern with two blocks. -/
theorem readRun_split_line : (lineReturn false [99]).status = (lineReturn true []).status := by
  have hone : readRun .onePiece lineRead
      [⟨none, some (.conditional [⟨0, some (some (.data [97, 98, 13, 10, 99]))⟩, ⟨0, none⟩])⟩] =
        some (lineReturn false [99]) := by decide
  have hthree : readRun .onePiece lineRead
      [⟨none, some (.conditional [⟨0, some (some (.data [97, 98, 13]))⟩,
        ⟨0, some (some (.fails Errno.ewouldblock .readable))⟩])⟩,
      ⟨some ⟨0, some (.fails Errno.ewouldblock .readable)⟩, none⟩,
      ⟨some ⟨0, some (.data [10])⟩, some (.conditional [⟨0, none⟩])⟩] =
        some (lineReturn true []) := by decide
  have hstream : (lineReturn false [99]).state.received ++ [100] =
      (lineReturn true []).state.received ++ [99, 100] := rfl
  exact (readRun_split onePiece_firstMatchSearch rfl rfl rfl hone hthree (.inl rfl) (.inl rfl)
    hstream).1

end Connio
