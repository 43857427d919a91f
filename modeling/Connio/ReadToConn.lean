import Connio.SyncApi

/-!
# Copying to another conn makes progress

The loop of `readToConnProcess` (`process.c`) with the integers it computes in, and with `connWriteEx` on the other
conn.  The count comes from the consumer as an `int`.

* `validConnIOArgs`, `stillNeeded` — the check of the arguments, and the octets that are still asked for;
* `copyWrite` — `connWriteEx` and the `errno` it leaves;
* `ConnCopy`, `ConnCopy.round`, `copyStep` — the loop, round by round, left at a blocking point and resumed;
* `CopyProgress` — each round returns or moves an octet, so each call returns;
* `copyProgress_iff` — **PROVED**: for a positive count always, for a negative one only when the first round returns.
-/

namespace Connio

open Connio.Lib

/-! ### The arguments -/

/-- `validConnIOArgs`; of a pointer it is given whether it is not NULL. -/
def validConnIOArgs (conn dest : Bool) (length : BitVec 32) : Int :=
  if conn then
    if length ≠ 0 then
      if dest then 1 else -1
    else 0
  else -1

/-- `stillNeeded`: the difference of two `unsigned long`s, stored in an `int` -/
def stillNeeded (s : ReadState) : Int := Int.bmod (s.event.count - s.event.transferred : ℕ) (2 ^ 32)

/-! ### The loop -/

/-- `connWriteEx( dest, buff, sendCount )`: the octets it has taken, `errno` after it, and the conn. -/
def copyWrite (dest : SyncConn) (errno : Errno) (buff : List UInt8) (sendCount : Int) (rounds : List WriteRound) :
    Option (ℕ × Errno × SyncConn) :=
  if dest.shuttingDown then some (0, Errno.econnhandleshutdown, dest)
  else if 0 < sendCount then
    (syncWriteClientData dest (buff.take sendCount.toNat) 0 rounds).map fun r =>
      -- a write that only fills the buffer leaves `errno` alone
      (r.transferred, if rounds.length = 1 ∧ r.errno = 0 then errno else r.errno, r.conn)
  else some (0, errno, dest)

inductive CopyPhase where
  | running
  /-- the function has returned `EWOULDBLOCK`, and the event waits -/
  | blocked
  | ended (error : Errno)
  deriving DecidableEq, Repr

/-- A `READ_TO_CONN` event with its source, the other conn, and `errno` of the thread. -/
structure ConnCopy where
  source : ReadState
  dest : SyncConn
  errno : Errno
  phase : CopyPhase := .running

/-- One round: how the buffer lies, the refills, and what the write meets. -/
structure CopyRound where
  layout : ℕ
  fills : List ConnFill
  writes : List WriteRound

/-- `SocketReceive` was called, which leaves `errno` 0. -/
def CopyRound.received (round : CopyRound) : Bool := round.fills.any fun fill => fill.answer.isSome

namespace ConnCopy

/-- The function returns; an event that does not say what it waits for cannot wait. -/
def returned (s : ConnCopy) (err : Errno) (blockedOn : SocketEventType) : ConnCopy :=
  { s with phase := if err = Errno.ewouldblock ∧ blockedOn ≠ .none then .blocked else .ended err }

/-- The write of a round, and its end. -/
def write (s : ConnCopy) (errno : Errno) (sendCount : Int) (rounds : List WriteRound) : Option ConnCopy :=
  (copyWrite s.dest errno s.source.buffer sendCount rounds).map fun (sent, errno, dest) =>
    if errno = 0 then { s with source := s.source.handOver sent, dest := dest, errno := errno }
    else { s with source := s.source.handOver sent, dest := dest, errno := errno }.returned errno .none

variable (iob : IOBufferLib)

/-- One round of the loop of `readToConnProcess`. -/
def round (s : ConnCopy) (round : CopyRound) : Option ConnCopy :=
  if s.source.event.count ≤ s.source.event.transferred then
    -- nothing is received any more
    if round.fills = [] then some (s.returned 0 .none) else none
  else
    match connFill iob (stillNeeded s.source).toNat s.source (iob.getUsed round.layout s.source.buffer)
      round.fills with
    | none => none
    | some (.inl (err, blockedOn), source) => some ({ s with source := source, errno := 0 }.returned err blockedOn)
    | some (.inr bufferCount, source) =>
      { s with source := source }.write (if round.received then 0 else s.errno)
        (min (bufferCount : Int) (stillNeeded s.source)) round.writes

end ConnCopy

inductive CopyAction where
  | round (round : CopyRound)
  /-- the event is resumed; the other conn may have been used in between -/
  | resume (answer : Option ReceiveAnswer) (dest : SyncConn)

/-- **One step;** `none` when it is not enabled. -/
def copyStep (iob : IOBufferLib) (s : ConnCopy) : CopyAction → Option ConnCopy
  | .round round => if s.phase = .running then s.round iob round else none
  | .resume answer dest =>
    if s.phase = .blocked then
      match s.source.fillRecvBuffer answer with
      | none => none
      | some (0, _, source) => some { source := source, dest := dest, errno := 0 }
      | some (err, blockedOn, source) =>
        some ({ s with source := source, dest := dest, errno := 0 }.returned err blockedOn)
    else none

/-- The event that `ConnReadToConnEx` and `ConnAReadToConnEx` assign. -/
def ConnCopy.start (length : BitVec 32) (buffer received : List UInt8) (dest : SyncConn) (errno : Errno) : ConnCopy where
  source := ⟨connEventAssign .readToConn {} [] (unsignedLong length), buffer, received⟩
  dest := dest
  errno := errno

/-- **Copying makes progress:** each round returns or moves an octet, and so each call returns. -/
structure CopyProgress (iob : IOBufferLib) (start : ConnCopy) : Prop where
  moves : ∀ s, Reachable (enabled (copyStep iob)) start s → ∀ round s', copyStep iob s (.round round) = some s' →
    s'.phase = .running → s.source.event.transferred < s'.source.event.transferred
  returns : ∀ s, Reachable (enabled (copyStep iob)) start s → ∃ n, ∀ (rounds : List CopyRound) (s' : ConnCopy),
    runFrom (copyStep iob) s (rounds.map .round) = some s' →
      rounds.length ≤ n ∧ ∀ round ∈ rounds, round.fills.length ≤ n

/-! ### What a round moves -/

section Copying

variable {iob : IOBufferLib} {s s' : ConnCopy}

/-- **A write takes all, or leaves an error (proved).** -/
theorem syncWriteClientData_all : ∀ {rounds : List WriteRound} {c : SyncConn} {data : List UInt8} {transferred : ℕ}
    {r : SyncReturn}, syncWriteClientData c data transferred rounds = some r →
      r.transferred ≤ transferred + data.length ∧ (r.errno = 0 → r.transferred = transferred + data.length)
  | [], _, _, _, _, h => by cases h
  | round :: rounds, c, data, transferred, r, h => by
    simp only [syncWriteClientData] at h
    split at h
    · split at h <;> cases h
      exact ⟨Nat.le_add_right _ _, fun (herr : Errno.enomem = 0) => absurd herr (by decide)⟩
    split at h
    · split at h <;> cases h
      exact ⟨Nat.le_refl _, fun _ => rfl⟩
    next hlong =>
      split at h
      · cases h
      next err dropped c' hflush =>
        split at h
        · obtain ⟨hle, hall⟩ := syncWriteClientData_all h
          rw [List.length_drop] at hle hall
          exact ⟨by omega, fun herr => by have := hall herr; omega⟩
        next hne =>
          split at h <;> cases h
          refine ⟨?_, fun herr => absurd herr hne⟩
          change transferred + (connIobSize - (c.sendBuffer.getD []).length) ≤ transferred + data.length
          omega

/-- What the refills leave in one piece is not nothing. -/
theorem connFill_pos {needed : ℕ} (hneeded : 0 < needed) : ∀ {fills : List ConnFill} {s s' : ReadState} {layout : ℕ}
    {bufferCount : ℕ}, connFill iob needed s (iob.getUsed layout s.buffer) fills = some (.inr bufferCount, s') →
      0 < bufferCount
  | [], s, s', layout, bufferCount, h => by
    unfold connFill at h
    split at h <;> cases h
    omega
  | fill :: fills, s, s', layout, bufferCount, h => by
    unfold connFill at h
    split at h
    · cases h
    split at h
    · cases h
    · exact connFill_pos hneeded h
    next err blockedOn s'' _ hfill =>
      split at h
      · cases h
      split at h <;> cases h
      next hfull =>
        -- the buffer is full
        have hlength := (fillRecvBuffer_enobufs hfill).mp hfull
        have hsize : 0 < connIobSize := by decide
        exact iob.getUsed_pos layout s.buffer (List.length_pos_iff.mp (by omega))

theorem connFill_event {needed : ℕ} : ∀ {fills : List ConnFill} {s s' : ReadState} {count : ℕ}
    {x : Errno × SocketEventType ⊕ ℕ}, connFill iob needed s count fills = some (x, s') → s'.event = s.event
  | [], s, s', count, x, h => by
    unfold connFill at h
    split at h <;> cases h
    rfl
  | fill :: fills, s, s', count, x, h => by
    unfold connFill at h
    split at h
    · cases h
    split at h
    · cases h
    next hfill => exact (connFill_event h).trans (fillRecvBuffer_event hfill)
    next hfill =>
      split at h
      · cases h
      split at h <;> cases h <;> exact fillRecvBuffer_event hfill

/-- A write takes no more than it is given; without an error, all of it. -/
theorem copyWrite_sent {dest dest' : SyncConn} {errno errno' : Errno} {buff : List UInt8} {sendCount : Int}
    {rounds : List WriteRound} {sent : ℕ} (h : copyWrite dest errno buff sendCount rounds = some (sent, errno', dest')) :
    sent ≤ sendCount.toNat ∧ (sendCount.toNat ≤ buff.length → errno' = 0 → sent = sendCount.toNat) := by
  unfold copyWrite at h
  split at h
  · cases h
    exact ⟨Nat.zero_le _, fun _ herr => absurd herr (by decide)⟩
  split at h
  · obtain ⟨r, hr, heq⟩ := Option.map_eq_some_iff.mp h
    simp only [Prod.mk.injEq] at heq
    obtain ⟨rfl, herrno, rfl⟩ := heq
    obtain ⟨hle, hall⟩ := syncWriteClientData_all hr
    rw [List.length_take] at hle hall
    refine ⟨by omega, fun hbuff herr => ?_⟩
    have hzero : r.errno = 0 := by
      split at herrno
      next hquiet => exact hquiet.2
      · exact herrno.trans herr
    have hsent := hall hzero
    omega
  next hneg =>
    cases h
    exact ⟨Nat.zero_le _, fun _ _ => by omega⟩

theorem returned_none (s : ConnCopy) (err : Errno) : (s.returned err .none).phase = .ended err :=
  if_neg fun hblocked => hblocked.2 rfl

theorem returned_phase (s : ConnCopy) (err : Errno) (blockedOn : SocketEventType) :
    (s.returned err blockedOn).phase ≠ .running := by
  unfold ConnCopy.returned
  simp only
  split <;> simp

/-- **The write of a round (proved):** it moves octets, and goes on only when all of them were taken. -/
theorem write_moves {errno : Errno} {sendCount : Int} {rounds : List WriteRound}
    (h : s.write errno sendCount rounds = some s') : s'.source.event.count = s.source.event.count ∧
      s'.source.event.transferred ≤ s.source.event.transferred + sendCount.toNat ∧
      (sendCount.toNat ≤ s.source.buffer.length → s'.phase = .running →
        s'.source.event.transferred = s.source.event.transferred + sendCount.toNat) := by
  obtain ⟨⟨sent, errno', dest⟩, hwrite, heq⟩ := Option.map_eq_some_iff.mp h
  obtain ⟨hle, hall⟩ := copyWrite_sent hwrite
  simp only at heq
  split at heq
  next herr =>
    subst heq
    refine ⟨rfl, Nat.add_le_add_left hle _, fun hbuff _ => ?_⟩
    exact congrArg (s.source.event.transferred + ·) (hall hbuff herr)
  · subst heq
    exact ⟨rfl, Nat.add_le_add_left hle _, fun _ hrun => absurd hrun (returned_phase _ _ _)⟩

theorem connFill_le {needed : ℕ} : ∀ {fills : List ConnFill} {s s' : ReadState} {count bufferCount : ℕ},
    count ≤ s.buffer.length → connFill iob needed s count fills = some (.inr bufferCount, s') →
      bufferCount ≤ s'.buffer.length
  | [], s, s', count, bufferCount, hle, h => by
    unfold connFill at h
    split at h <;> cases h
    exact hle
  | fill :: fills, s, s', count, bufferCount, hle, h => by
    unfold connFill at h
    split at h
    · cases h
    split at h
    · cases h
    · exact connFill_le (iob.getUsed_le _ _) h
    next herr hfill =>
      split at h
      · cases h
      split at h <;> cases h
      rw [(fillRecvBuffer_failed (fun h0 => herr h0) hfill).1]
      exact hle

/-! ### A positive count -/

/-- The invariant of a copy of `count` octets. -/
structure CopyInv (count : ℕ) (s : ConnCopy) : Prop where
  count_eq : s.source.event.count = count
  transferred_le : s.source.event.transferred ≤ count

theorem stillNeeded_pos {s : ReadState} (hcount : s.event.count < 2 ^ 31) :
    stillNeeded s = (s.event.count - s.event.transferred : ℕ) := by
  unfold stillNeeded
  rw [Int.bmod_eq_of_le_mul_two] <;> omega

/-- **One round for a positive count (proved):** it returns, or moves an octet. -/
theorem round_moves {count : ℕ} {round : CopyRound} (hcount : count < 2 ^ 31) (h : CopyInv count s)
    (hround : s.round iob round = some s') : CopyInv count s' ∧
      (s'.phase = .running → s.source.event.transferred < s'.source.event.transferred) := by
  obtain ⟨hcount_eq, hle⟩ := h
  unfold ConnCopy.round at hround
  split at hround
  · split at hround <;> cases hround
    exact ⟨⟨hcount_eq, hle⟩, fun hrun => absurd hrun (returned_phase _ _ _)⟩
  next hmore =>
    have hneeded := stillNeeded_pos (s := s.source) (by omega)
    rw [hneeded, Int.toNat_natCast] at hround
    split at hround
    · cases hround
    next source hfill =>
      cases hround
      have hevent := connFill_event hfill
      refine ⟨⟨?_, ?_⟩, fun hrun => absurd hrun (returned_phase _ _ _)⟩
      · exact (congrArg ReadEvent.count hevent).trans hcount_eq
      · exact Nat.le_trans (Nat.le_of_eq (congrArg ReadEvent.transferred hevent)) hle
    next bufferCount source hfill =>
      have hevent := connFill_event hfill
      have hpos := connFill_pos (by omega) hfill
      have hbuffer := connFill_le (iob.getUsed_le _ _) hfill
      obtain ⟨hsame, hbound, hall⟩ := write_moves hround
      simp only [hevent] at hsame hbound hall
      have hsend : (min (bufferCount : Int) (s.source.event.count - s.source.event.transferred : ℕ)).toNat =
          min bufferCount (s.source.event.count - s.source.event.transferred) := by omega
      rw [hsend] at hbound hall
      refine ⟨⟨hsame.trans hcount_eq, by omega⟩, fun hrun => ?_⟩
      have hmoved := hall (by omega) hrun
      omega

/-- A refill adds octets or ends the inner loop, and the buffer is bounded. -/
theorem connFill_length {needed : ℕ} : ∀ {fills : List ConnFill} {s s' : ReadState} {count : ℕ}
    {x : Errno × SocketEventType ⊕ ℕ}, connFill iob needed s count fills = some (x, s') →
      fills.length ≤ connIobSize - s.buffer.length + 1
  | [], _, _, _, _, _ => Nat.zero_le _
  | fill :: fills, s, s', count, x, h => by
    unfold connFill at h
    rw [List.length_cons]
    split at h
    · cases h
    split at h
    · cases h
    next s'' hfill =>
      have hrest := connFill_length h
      obtain ⟨octets, hanswer, rfl⟩ := fillRecvBuffer_filled hfill
      rw [hanswer] at hfill
      have hdata := (Option.ite_none_right_eq_some.mp hfill).1
      have hpos := List.length_pos_iff.mpr hdata.1
      simp only [List.length_append] at hrest
      omega
    · split at h
      · cases h
      next hlast =>
        obtain rfl : fills = [] := not_ne_iff.mp hlast
        exact Nat.le_add_left 1 _

theorem round_fills {round : CopyRound} (h : s.round iob round = some s') :
    round.fills.length ≤ connIobSize + 1 := by
  unfold ConnCopy.round at h
  split at h
  · split at h <;> cases h
    next hfills => rw [hfills]; exact Nat.zero_le _
  split at h
  · cases h
  next hfill =>
    have := connFill_length hfill
    omega
  next hfill =>
    have := connFill_length hfill
    omega

/-! ### Runs -/

theorem copyStep_running {round : CopyRound} (h : s.phase = .running) :
    copyStep iob s (.round round) = s.round iob round := if_pos h

theorem copyStep_round {round : CopyRound} (h : copyStep iob s (.round round) = some s') :
    s.phase = .running ∧ s.round iob round = some s' := Option.ite_none_right_eq_some.mp h

/-- The octets still to be moved bound the rounds of a call. -/
theorem copyInv_rounds {count : ℕ} (hcount : count < 2 ^ 31) : ∀ {rounds : List CopyRound} {s s' : ConnCopy},
    CopyInv count s → runFrom (copyStep iob) s (rounds.map .round) = some s' →
      rounds.length ≤ count - s.source.event.transferred + 1 ∧
        ∀ round ∈ rounds, round.fills.length ≤ connIobSize + 1
  | [], _, _, _, _ => ⟨Nat.zero_le _, fun _ hmem => nomatch hmem⟩
  | round :: rounds, s, s', hinv, hrun => by
    obtain ⟨t, hstep, hrest⟩ := Option.bind_eq_some_iff.mp hrun
    obtain ⟨_, hround⟩ := copyStep_round hstep
    obtain ⟨hkept, hmoves⟩ := round_moves hcount hinv hround
    have ih := copyInv_rounds hcount hkept hrest
    refine ⟨?_, List.forall_mem_cons.mpr ⟨round_fills hround, ih.2⟩⟩
    rw [List.length_cons]
    by_cases hrunning : t.phase = .running
    · have hlt := hmoves hrunning
      have hle := hkept.transferred_le
      omega
    · -- the call has returned
      cases rounds with
      | nil => exact Nat.le_add_left 1 _
      | cons next rounds =>
        obtain ⟨_, hnext, _⟩ := Option.bind_eq_some_iff.mp hrest
        exact absurd (copyStep_round hnext).1 hrunning

/-- **Every step keeps the invariant (proved).** -/
theorem copyStep_inv {count : ℕ} (hcount : count < 2 ^ 31) {a : CopyAction} (h : CopyInv count s)
    (hstep : copyStep iob s a = some s') : CopyInv count s' := by
  cases a with
  | round round => exact (round_moves hcount h (copyStep_round hstep).2).1
  | resume answer dest =>
    simp only [copyStep] at hstep
    split at hstep
    · split at hstep <;> cases hstep
      all_goals
        next hfill =>
          have hevent := fillRecvBuffer_event hfill
          exact ⟨(congrArg ReadEvent.count hevent).trans h.count_eq,
            Nat.le_trans (Nat.le_of_eq (congrArg ReadEvent.transferred hevent)) h.transferred_le⟩
    · cases hstep

/-! ### A negative count -/

variable {length : BitVec 32} {buffer received : List UInt8} {dest : SyncConn} {errno : Errno}

theorem start_stillNeeded (h : length.toInt < 0) :
    stillNeeded (ConnCopy.start length buffer received dest errno).source = length.toInt := by
  have heq := unsignedLong_eq length
  have hle := BitVec.le_toInt length
  rw [if_neg (by omega)] at heq
  change Int.bmod (unsignedLong length - 0 : ℕ) (2 ^ 32) = _
  rw [Nat.sub_zero, heq, show (2 ^ 64 : Int) + length.toInt = length.toInt + 2 ^ 32 * ((2 ^ 32 : ℕ) : Int) by omega,
    Int.add_mul_bmod_self_right, Int.bmod_eq_of_le_mul_two] <;> omega

/-- A negative length is not written. -/
theorem copyWrite_negative {buff : List UInt8} {sendCount : Int} (h : sendCount < 0) (rounds : List WriteRound) :
    copyWrite dest errno buff sendCount rounds =
      some (0, if dest.shuttingDown then Errno.econnhandleshutdown else errno, dest) := by
  unfold copyWrite
  split
  · rfl
  · rw [if_neg (by omega)]

/-- How a round ends that writes a negative length. -/
def copyEnd (dest : SyncConn) (errno : Errno) : CopyPhase :=
  if dest.shuttingDown then .ended Errno.econnhandleshutdown
  else if errno = 0 then .running else .ended errno

theorem copyEnd_running : copyEnd dest errno = .running ↔ errno = 0 ∧ dest.shuttingDown = false := by
  unfold copyEnd
  split
  next hdest => exact iff_of_false CopyPhase.noConfusion fun hquiet => ne_true_of_eq_false hquiet.2 hdest
  next hdest =>
    split
    next herr => exact iff_of_true rfl ⟨herr, Bool.eq_false_iff.mpr hdest⟩
    next herr => exact iff_of_false CopyPhase.noConfusion fun hquiet => herr hquiet.1

theorem copyEnd_ended (h : copyEnd dest errno ≠ .running) : ∃ err, copyEnd dest errno = .ended err := by
  unfold copyEnd at h ⊢
  split
  · exact ⟨_, rfl⟩
  next hdest =>
    rw [if_neg hdest] at h
    split at h
    · exact absurd rfl h
    next herr => exact ⟨errno, if_neg herr⟩

theorem write_negative {sendCount : Int} {rounds : List WriteRound} (hrunning : s.phase = .running)
    (h : sendCount < 0) (hwrite : s.write errno sendCount rounds = some s') :
    s'.source.event.transferred = s.source.event.transferred ∧
      s'.phase = copyEnd s.dest errno := by
  unfold ConnCopy.write at hwrite
  rw [copyWrite_negative h] at hwrite
  simp only [Option.map_some, Option.some.injEq] at hwrite
  subst hwrite
  unfold copyEnd
  split
  · rw [if_neg (by decide)]
    exact ⟨rfl, returned_none _ _⟩
  · split
    · exact ⟨rfl, hrunning⟩
    · exact ⟨rfl, returned_none _ _⟩

/-- **The first round for a negative count (proved):** nothing is received, and a negative length is written. -/
theorem start_round_eq (h : length.toInt < 0) (round : CopyRound) :
    (ConnCopy.start length buffer received dest errno).round iob round =
      if round.fills = [] then (ConnCopy.start length buffer received dest errno).write errno
        (min (iob.getUsed round.layout buffer : Int) length.toInt) round.writes
      else none := by
  have hcount := unsignedLong_eq length
  have hle := BitVec.le_toInt length
  have hneeded : stillNeeded (ConnCopy.start length buffer received dest errno).source = length.toInt :=
    start_stillNeeded h
  rw [if_neg (by omega)] at hcount
  have hopen : ¬ (ConnCopy.start length buffer received dest errno).source.event.count ≤
      (ConnCopy.start length buffer received dest errno).source.event.transferred :=
    show ¬ unsignedLong length ≤ 0 by omega
  obtain ⟨layout, fills, writes⟩ := round
  unfold ConnCopy.round
  rw [if_neg hopen, hneeded, Int.toNat_of_nonpos (by omega)]
  cases fills with
  | nil => rfl
  | cons => rfl

/-- Nothing is moved, and only an `errno` ends the round. -/
theorem start_round (h : length.toInt < 0) {round : CopyRound}
    (hround : (ConnCopy.start length buffer received dest errno).round iob round = some s') :
    s'.source.event.transferred = 0 ∧ s'.phase = copyEnd dest errno := by
  rw [start_round_eq h] at hround
  exact write_negative rfl (by omega) (Option.ite_none_right_eq_some.mp hround).2

/-- A round is enabled, whatever lies in the buffer. -/
theorem start_spins (h : length.toInt < 0) (dest : SyncConn) (errno : Errno) :
    ∃ s', copyStep iob (ConnCopy.start length buffer received dest errno) (.round ⟨0, [], []⟩) = some s' := by
  have hround : (ConnCopy.start length buffer received dest errno).round iob ⟨0, [], []⟩ = _ := start_round_eq h _
  rw [if_pos rfl, ConnCopy.write, copyWrite_negative (by omega), Option.map_some] at hround
  exact ⟨_, (copyStep_running rfl).trans hround⟩

/-- What is reached from a negative count whose first round returns. -/
theorem start_reachable (h : length.toInt < 0) (hends : copyEnd dest errno ≠ .running)
    (hs : Reachable (enabled (copyStep iob)) (ConnCopy.start length buffer received dest errno) s) :
    s = ConnCopy.start length buffer received dest errno ∨ ∃ err, s.phase = .ended err := by
  refine hs.invariant (P := fun t => t = ConnCopy.start length buffer received dest errno ∨ ∃ err, t.phase = .ended err)
    (.inl rfl) fun t a t' ht _ hstep => ?_
  obtain rfl | ⟨err, hended⟩ := ht
  · cases a with
    | round round =>
      obtain ⟨err, herr⟩ := copyEnd_ended hends
      exact .inr ⟨err, (start_round h (copyStep_round hstep).2).2.trans herr⟩
    | resume answer dest' => cases hstep
  · cases a with
    | round round =>
      have hrunning := (copyStep_round hstep).1
      rw [hended] at hrunning
      cases hrunning
    | resume answer dest' =>
      have hblocked := (Option.ite_none_right_eq_some.mp hstep).1
      rw [hended] at hblocked
      cases hblocked

/-! ### The theorem -/

/-- **Copying to another conn makes progress for a positive count (proved),** and for a negative one, which the check
of the arguments lets through, exactly when the first round returns: the other conn shuts down, or `errno` was left
over.  Otherwise `stillNeeded` is negative, nothing is received and nothing is written, round after round. -/
theorem copyProgress_iff (iob : IOBufferLib) (length : BitVec 32) (buffer received : List UInt8) (dest : SyncConn)
    (errno : Errno) (hargs : 0 < validConnIOArgs true true length) :
    CopyProgress iob (ConnCopy.start length buffer received dest errno) ↔
      0 < length.toInt ∨ errno ≠ 0 ∨ dest.shuttingDown = true := by
  have hzero : length.toInt ≠ 0 := by
    intro h
    rw [show length = 0 from BitVec.eq_of_toInt_eq h] at hargs
    exact absurd hargs (by decide)
  constructor
  · intro h
    by_contra hno
    simp only [not_or, not_not, Bool.not_eq_true] at hno
    obtain ⟨hpos, herr, hdest⟩ := hno
    have hneg : length.toInt < 0 := by omega
    obtain ⟨s', hround⟩ : ∃ s', copyStep iob (ConnCopy.start length buffer received dest errno)
        (.round ⟨0, [], []⟩) = some s' := start_spins hneg dest errno
    obtain ⟨hnothing, hphase⟩ := start_round hneg (copyStep_round hround).2
    have hmoves := h.moves _ .init _ s' hround (hphase.trans (copyEnd_running.mpr ⟨herr, hdest⟩))
    rw [hnothing] at hmoves
    exact Nat.lt_irrefl 0 hmoves
  · intro h
    by_cases hpos : 0 < length.toInt
    · have hcount := unsignedLong_pos hpos
      have hinv : ∀ s, Reachable (enabled (copyStep iob)) (ConnCopy.start length buffer received dest errno) s →
          CopyInv (unsignedLong length) s := fun s hs =>
        hs.invariant ⟨rfl, Nat.zero_le _⟩ fun _ _ _ hinv _ hstep => copyStep_inv hcount hinv hstep
      refine ⟨fun s hs round s' hstep => ?_, fun s hs => ⟨unsignedLong length + connIobSize + 1, fun rounds s' hrun => ?_⟩⟩
      · exact (round_moves hcount (hinv s hs) (copyStep_round hstep).2).2
      · obtain ⟨hrounds, hfills⟩ := copyInv_rounds hcount (hinv s hs) hrun
        refine ⟨by omega, fun round hmem => ?_⟩
        have := hfills round hmem
        omega
    · have hneg : length.toInt < 0 := by omega
      have hends : copyEnd dest errno ≠ .running := by
        intro hrunning
        obtain ⟨herr, hdest⟩ := copyEnd_running.mp hrunning
        exact (h.resolve_left hpos).elim (· herr) fun hdown => ne_true_of_eq_false hdest hdown
      have hreturns : ∀ s, Reachable (enabled (copyStep iob)) (ConnCopy.start length buffer received dest errno) s →
          ∀ round s', copyStep iob s (.round round) = some s' → s'.phase ≠ .running := by
        intro s hs round s' hstep hrun
        obtain rfl | ⟨err, hended⟩ := start_reachable hneg hends hs
        · exact absurd ((start_round hneg (copyStep_round hstep).2).2.symm.trans hrun) hends
        · exact absurd ((copyStep_round hstep).1.symm.trans hended) CopyPhase.noConfusion
      refine ⟨fun s hs round s' hstep hrun => absurd hrun (hreturns s hs round s' hstep),
        fun s hs => ⟨connIobSize + 1, fun rounds s' hrun => ?_⟩⟩
      cases rounds with
      | nil => exact ⟨Nat.zero_le _, fun _ hmem => nomatch hmem⟩
      | cons round rounds =>
        obtain ⟨t, hstep, hrest⟩ := Option.bind_eq_some_iff.mp hrun
        cases rounds with
        | nil => exact ⟨Nat.le_add_left 1 _, List.forall_mem_singleton.mpr (round_fills (copyStep_round hstep).2)⟩
        | cons next rounds =>
          obtain ⟨_, hnext, _⟩ := Option.bind_eq_some_iff.mp hrest
          exact absurd (copyStep_round hnext).1 (hreturns s hs round t hstep)

/-- The condition is met by a count of one octet. -/
theorem copyProgress_one : CopyProgress .onePiece (ConnCopy.start 1 [] [] (.new (some 3)) 0) :=
  (copyProgress_iff .onePiece 1 [] [] (.new (some 3)) 0 (by decide)).mpr (.inl (by decide))

/-- **A count of −1 (proved):** it passes the check of the arguments, and the loop never returns. -/
theorem copy_spins : ¬ ∀ (iob : IOBufferLib) (length : BitVec 32) (buffer received : List UInt8) (dest : SyncConn)
    (errno : Errno), 0 < validConnIOArgs true true length →
      CopyProgress iob (ConnCopy.start length buffer received dest errno) := by
  intro h
  have hprogress := h .onePiece (-1) [] [] (.new (some 3)) 0 (by decide)
  obtain ⟨s', hstep⟩ : ∃ s', copyStep .onePiece (ConnCopy.start (-1) [] [] (.new (some 3)) 0)
      (.round ⟨0, [], []⟩) = some s' := start_spins (by decide) (.new (some 3)) 0
  obtain ⟨hnothing, hphase⟩ := start_round (by decide) (copyStep_round hstep).2
  have hmoves := hprogress.moves _ .init _ s' hstep (hphase.trans (by decide))
  rw [hnothing] at hmoves
  exact Nat.lt_irrefl 0 hmoves

end Copying

end Connio
