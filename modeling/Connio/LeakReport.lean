import Connio.ListenerChildren
import Connio.LogMessage

/-!
# The report of unreleased conns

`debugUnreleasedConns` (`debug.c`) counts the conns that are in use by the places in the source where they were created,
and prints a line for each place.

* `CreatedAt`, `Consumer`, `LeakReport` — a place, a place with a count, and what the function is given;
* `compareConsumers`, `writeString`, `debugUnreleasedConns` — the loops of the source;
* `BySite`, `ReportExact` — one line for each place, with the number of conns, and room for all of them;
* `Opens`, `ComparedWith`, `CountedIn` — what a conn does to the consumers, by the positions of the conns;
* `reportedAt`, `PlacesSettled` — the place at which a conn is reported, and that these are the right ones;
* `consumers_eq` — **PROVED**: the consumers are those that conns open, with the lines of the last conns compared;
* `allWritten_iff` — **PROVED**: when the message has room for all strings;
* `reportExact_iff` — **PROVED**: when the report is exact.

The condition of the source's comparison is an assignment: a consumer that is compared with a conn gets its line.
-/

namespace Connio

/-! ### Conns and consumers -/

/-- `created.file` and `created.line` -/
structure CreatedAt where
  file : List UInt8
  line : BitVec 32
  deriving DecidableEq, Repr

/-- A conn in use. -/
structure InUseConn where
  conn : HandleConn
  created : CreatedAt

structure Consumer where
  source : CreatedAt
  count : ℕ
  deriving DecidableEq, Repr

/-- The consumers, and the size of their lines when they were new. -/
structure ConsumerList where
  consumers : List Consumer := []
  msgSize : ℕ := 0

/-- What the function is given: there are fewer conns than a `count` can hold. -/
structure LeakReport where
  identity : List UInt8
  cllist : Option ConnListenerList
  inUse : List InUseConn
  waited : BitVec 32
  bounded : inUse.length < 18446744073709551616

/-! ### The strings -/

/-- `"%20lu"` -/
def decimal20 (n : ℕ) : List UInt8 := List.replicate (20 - (decimal n).length) 32 ++ decimal n

/-- The strings of a consumer's line. -/
def Consumer.strings (e : Consumer) : List (List UInt8) :=
  [decimal20 e.count, octetsOf " ", e.source.file, octetsOf ":", decimalInt e.source.line.toInt, octetsOf "\n"]

/-- What `msgSize` counts for a new consumer. -/
def CreatedAt.lineSize (c : CreatedAt) : ℕ := (Consumer.strings ⟨c, 0⟩).flatten.length

namespace LeakReport

variable (r : LeakReport)

/-- The strings of the first line. -/
def header : List (List UInt8) :=
  [octetsOf "Connio Consumer ", r.identity,
    match r.cllist with
    | none => octetsOf " has not released the following connections in the "
    | some _ => octetsOf " has not released the following children in the ",
    decimalInt r.waited.toInt, octetsOf " seconds since all connections were closed:\n"]

/-! ### The consumers -/

/-- `!cllist || connChild( cllist, conn )` -/
def selects (conn : HandleConn) : Bool :=
  match r.cllist with
  | none => true
  | some cllist => connChild cllist conn

end LeakReport

/-- The search for a consumer: whether it was found, and the consumers afterwards. -/
def compareConsumers (c : CreatedAt) : List Consumer → Bool × List Consumer
  | [] => (false, [])
  | e :: es =>
    -- `consumer->source.line = conn->pub.created.line`
    let e := { e with source := { e.source with line := c.line } }
    if c.line ≠ 0 ∧ e.source.file = c.file then (true, { e with count := e.count + 1 } :: es)
    else ((compareConsumers c es).1, e :: (compareConsumers c es).2)

/-- One round of the loop over the conns that are selected. -/
def ConsumerList.addConn (s : ConsumerList) (c : CreatedAt) : ConsumerList :=
  if (compareConsumers c s.consumers).1 = true then { s with consumers := (compareConsumers c s.consumers).2 }
  else
    { consumers := ⟨c, 1⟩ :: (compareConsumers c s.consumers).2
      msgSize := s.msgSize + c.lineSize }

/-! ### The message -/

/-- `writeString`: whether there was room, and what is in the message. -/
def writeString (msgSize : ℕ) (msg string : List UInt8) : Bool × List UInt8 :=
  let bufferLen := (BitVec.ofNat 32 (msgSize - msg.length)).toInt
  if bufferLen > 0 ∧ bufferLen > string.length then (true, msg ++ string) else (false, msg)

/-- One string after the other. -/
def writeStrings (msgSize : ℕ) : List UInt8 → List (List UInt8) → List Bool × List UInt8
  | msg, [] => ([], msg)
  | msg, string :: strings =>
    ((writeString msgSize msg string).1 :: (writeStrings msgSize (writeString msgSize msg string).2 strings).1,
      (writeStrings msgSize (writeString msgSize msg string).2 strings).2)

namespace LeakReport

variable (r : LeakReport)

/-- The first loop. -/
def list : ConsumerList :=
  r.inUse.foldl (fun s c => if r.selects c.conn = true then s.addConn c.created else s) {}

/-- `msgSize` -/
def msgSize : ℕ := r.list.msgSize + r.header.flatten.length + 1

/-- `debugUnreleasedConns`: what each `writeString` returns, and the message that is printed; `none` without memory. -/
def debugUnreleasedConns (memory : Bool) : Option (List Bool × List UInt8) :=
  if memory = true then some (writeStrings r.msgSize [] (r.header ++ r.list.consumers.flatMap Consumer.strings))
  else none

/-- Where the selected conns were created. -/
def sites : List CreatedAt := (r.inUse.filter fun c => r.selects c.conn).map InUseConn.created

end LeakReport

/-- **One consumer for each place,** with the number of conns that were created there. -/
structure BySite (sites : List CreatedAt) (consumers : List Consumer) : Prop where
  nodup : (consumers.map Consumer.source).Nodup
  mem : ∀ c, c ∈ consumers.map Consumer.source ↔ c ∈ sites
  count : ∀ e ∈ consumers, e.count = (sites.filter fun c => c = e.source).length

/-- **The report has one line for each place,** with the right number, and none of its strings is left out. -/
def ReportExact (r : LeakReport) (memory : Bool) : Prop :=
  ∃ results msg, r.debugUnreleasedConns memory = some (results, msg) ∧ (∀ b ∈ results, b = true) ∧
    BySite r.sites r.list.consumers

/-! ### By position -/

section Positions

variable (s : ℕ → CreatedAt)

/-- A conn opens a consumer: its line is 0, or it is the first of its file. -/
def Opens (i : ℕ) : Prop := (s i).line = 0 ∨ ∀ k < i, (s k).file ≠ (s i).file

instance (i : ℕ) : Decidable (Opens s i) := inferInstanceAs (Decidable (_ ∨ _))

/-- Of the consumers opened behind `i`, none is for the file of conn `j`. -/
def NoneBetween (i j : ℕ) : Prop := ∀ k < j, i < k → Opens s k → (s k).file ≠ (s j).file

instance (i j : ℕ) : Decidable (NoneBetween s i j) := inferInstanceAs (Decidable (∀ k < j, _ → _ → _))

/-- Conn `j` is compared with the consumer that `i` opens, or opens it. -/
def ComparedWith (i j : ℕ) : Prop := j = i ∨ i < j ∧ (Opens s j ∨ NoneBetween s i j)

instance (i j : ℕ) : Decidable (ComparedWith s i j) := inferInstanceAs (Decidable (_ ∨ _ ∧ (_ ∨ _)))

/-- Conn `j` is counted in the consumer that `i` opens. -/
def CountedIn (i j : ℕ) : Prop := j = i ∨ i < j ∧ ¬ Opens s j ∧ NoneBetween s i j ∧ (s i).file = (s j).file

instance (i j : ℕ) : Decidable (CountedIn s i j) := inferInstanceAs (Decidable (_ ∨ _ ∧ _ ∧ _ ∧ _))

/-- The last of the first `n` conns that is compared with the consumer that `i` opens. -/
def lastCompared (i : ℕ) : ℕ → ℕ
  | 0 => i
  | n + 1 => if ComparedWith s i n then n else lastCompared i n

/-- The place that the consumer that `i` opens ends with. -/
def placeOf (n i : ℕ) : CreatedAt := ⟨(s i).file, (s (lastCompared s i n)).line⟩

/-- The conns that are counted in it. -/
def countOf (n i : ℕ) : ℕ := ((List.range n).filter fun j => CountedIn s i j).length

/-- The last of the first conns that opens a consumer for a file. -/
def lastOpener (file : List UInt8) : ℕ → ℕ
  | 0 => 0
  | n + 1 => if Opens s n ∧ (s n).file = file then n else lastOpener file n

/-- The conn that opens the consumer in which conn `j` is counted. -/
def openerOf (j : ℕ) : ℕ := lastOpener s (s j).file (j + 1)

/-- The place at which conn `j` is reported. -/
def reportedAt (n j : ℕ) : CreatedAt := placeOf s n (openerOf s j)

/-- The conns that open a consumer, the newest first. -/
def openers : ℕ → List ℕ
  | 0 => []
  | n + 1 => if Opens s n then n :: openers n else openers n

end Positions

/-- The place by position; there is none behind the last one. -/
def LeakReport.site (r : LeakReport) (i : ℕ) : CreatedAt := r.sites.getD i ⟨[], 0⟩

/-- Each conn has the line of the last conn that is compared with the consumer for its file. -/
def LinesSettled (s : ℕ → CreatedAt) (n : ℕ) : Prop :=
  ∀ j < n, ∀ i < n, Opens s i → (s i).file = (s j).file → (s j).line = (s (lastCompared s i n)).line

/-- **The conns are reported at the places where they were created,** but for their order, and the conns of different
consumers at different places. -/
def PlacesSettled (s : ℕ → CreatedAt) (n : ℕ) : Prop :=
  ((List.range n).map (reportedAt s n)).Perm ((List.range n).map s) ∧
    ∀ j < n, ∀ k < n, reportedAt s n j = reportedAt s n k → openerOf s j = openerOf s k

/-- The size of the lines for some places. -/
def linesSize (places : List CreatedAt) : ℕ := places.foldr (fun c n => c.lineSize + n) 0

namespace LeakReport

variable (r : LeakReport)

/-- The length of the text, with the places the consumers end with. -/
def textLength : ℕ :=
  r.header.flatten.length + linesSize ((openers r.site r.sites.length).map (placeOf r.site r.sites.length))

/-- The size of the message, with the places the consumers are opened with. -/
def textRoom : ℕ := r.header.flatten.length + linesSize ((openers r.site r.sites.length).map r.site) + 1

/-- **When the report is exact.**  Where no line is 0, each conn has the line of the last conn that is compared with the
consumer for its file, and the text is shorter than 2 GB; otherwise the conns are reported at the places where they were
created, in some order. -/
def Settled : Prop :=
  if ∀ i < r.sites.length, (r.site i).line ≠ 0 then
    LinesSettled r.site r.sites.length ∧ r.textLength + 1 < 2147483648
  else PlacesSettled r.site r.sites.length ∧ (r.textLength : Int) < (BitVec.ofNat 32 r.textRoom).toInt

end LeakReport

/-! ### The consumers by position -/

/-- The consumers end with different places, each with as many conns as are counted, and every conn's place is one. -/
def EndsBySite (s : ℕ → CreatedAt) (n : ℕ) : Prop :=
  (∀ i < n, ∀ k < n, Opens s i → Opens s k → placeOf s n i = placeOf s n k → i = k) ∧
  (∀ i < n, Opens s i → countOf s n i = ((List.range n).filter fun j => s j = placeOf s n i).length) ∧
  ∀ j < n, ∃ i < n, Opens s i ∧ placeOf s n i = s j

section Positions

variable {s : ℕ → CreatedAt} {i j k m n : ℕ}

theorem compareConsumers_hit {c : CreatedAt} {e : Consumer} {es : List Consumer}
    (h : c.line ≠ 0 ∧ e.source.file = c.file) :
    compareConsumers c (e :: es) = (true, ⟨⟨e.source.file, c.line⟩, e.count + 1⟩ :: es) := if_pos h

theorem compareConsumers_miss {c : CreatedAt} {e : Consumer} {es : List Consumer}
    (h : ¬ (c.line ≠ 0 ∧ e.source.file = c.file)) : compareConsumers c (e :: es) =
      ((compareConsumers c es).1, ⟨⟨e.source.file, c.line⟩, e.count⟩ :: (compareConsumers c es).2) := if_neg h

theorem lastCompared_succ (s : ℕ → CreatedAt) (i n : ℕ) :
    lastCompared s i (n + 1) = if ComparedWith s i n then n else lastCompared s i n := rfl

theorem countOf_succ (s : ℕ → CreatedAt) (n i : ℕ) :
    countOf s (n + 1) i = countOf s n i + if CountedIn s i n then 1 else 0 := by
  unfold countOf
  rw [List.range_succ, List.filter_append, List.length_append]
  by_cases h : CountedIn s i n
  · simp [h]
  · simp [h]

theorem CountedIn.compared (h : CountedIn s i j) : ComparedWith s i j := by
  rcases h with h | ⟨hij, _, hnone, _⟩
  · exact .inl h
  · exact .inr ⟨hij, .inr hnone⟩

/-- The consumer that `i` opens, after `n` conns. -/
def consumerAt (s : ℕ → CreatedAt) (n i : ℕ) : Consumer := ⟨placeOf s n i, countOf s n i⟩

/-- A conn that is not compared with a consumer leaves it alone. -/
theorem consumerAt_of_not_compared (h : ¬ ComparedWith s i n) : consumerAt s (n + 1) i = consumerAt s n i := by
  unfold consumerAt placeOf
  rw [lastCompared_succ, if_neg h, countOf_succ, if_neg fun hc => h hc.compared, Nat.add_zero]

/-- A conn that is compared with a consumer gives it its line. -/
theorem consumerAt_of_compared (h : ComparedWith s i n) : consumerAt s (n + 1) i =
    ⟨⟨(s i).file, (s n).line⟩, countOf s n i + if CountedIn s i n then 1 else 0⟩ := by
  unfold consumerAt placeOf
  rw [lastCompared_succ, if_pos h, countOf_succ]

theorem mem_openers : i ∈ openers s n ↔ i < n ∧ Opens s i := by
  induction n with
  | zero => exact iff_of_false List.not_mem_nil fun h => Nat.not_lt_zero i h.1
  | succ n ih =>
    unfold openers
    split
    next hopens =>
      rw [List.mem_cons, ih]
      constructor
      · rintro (rfl | ⟨hlt, h⟩)
        · exact ⟨Nat.lt_succ_self i, hopens⟩
        · exact ⟨Nat.lt_succ_of_lt hlt, h⟩
      · rintro ⟨hlt, h⟩
        exact (Nat.lt_succ_iff_lt_or_eq.mp hlt).symm.imp id fun hlt => ⟨hlt, h⟩
    next hnot =>
      rw [ih]
      refine ⟨fun ⟨hlt, h⟩ => ⟨Nat.lt_succ_of_lt hlt, h⟩, fun ⟨hlt, h⟩ => ⟨?_, h⟩⟩
      rcases Nat.lt_succ_iff_lt_or_eq.mp hlt with hlt | rfl
      · exact hlt
      · exact absurd h hnot

theorem nodup_openers : (openers s n).Nodup := by
  induction n with
  | zero => exact List.nodup_nil
  | succ n ih =>
    unfold openers
    split
    · exact List.nodup_cons.mpr ⟨fun hmem => Nat.lt_irrefl n (mem_openers.mp hmem).1, ih⟩
    · exact ih

/-- The first conn of a file opens a consumer for it. -/
theorem exists_opener (s : ℕ → CreatedAt) (k : ℕ) : ∃ i ≤ k, Opens s i ∧ (s i).file = (s k).file := by
  induction k using Nat.strongRecOn with
  | ind k ih =>
    by_cases hopens : Opens s k
    · exact ⟨k, Nat.le_refl k, hopens, rfl⟩
    · obtain ⟨_, hbefore⟩ := not_or.mp hopens
      push Not at hbefore
      obtain ⟨k', hlt, hfile⟩ := hbefore
      obtain ⟨i, hle, hi, hfile'⟩ := ih k' hlt
      exact ⟨i, by omega, hi, hfile'.trans hfile⟩

/-- A conn opens no consumer when there is one for its file, and its line is not 0. -/
theorem not_opens_iff : ¬ Opens s n ↔ (s n).line ≠ 0 ∧ ∃ k < n, Opens s k ∧ (s k).file = (s n).file := by
  constructor
  · intro hnot
    obtain ⟨hline, hbefore⟩ := not_or.mp hnot
    push Not at hbefore
    obtain ⟨k, hlt, hfile⟩ := hbefore
    obtain ⟨i, hle, hi, hfile'⟩ := exists_opener s k
    exact ⟨hline, i, by omega, hi, hfile'.trans hfile⟩
  · rintro ⟨hline, k, hlt, _, hfile⟩ (hzero | hfirst)
    · exact hline hzero
    · exact hfirst k hlt hfile

/-- A number that is not below `m` and does not have the property adds nothing. -/
theorem exists_lt_succ_of_not {p : ℕ → Prop} (h : ¬ p m) : (∃ k < m + 1, p k) ↔ ∃ k < m, p k := by
  rw [Nat.exists_lt_succ_right, or_iff_left h]

/-- **The search (proved):** of the consumers opened before `m`, when the newer ones have not been the right one. -/
theorem compareConsumers_openers (hm : m ≤ n)
    (hnewer : ∀ k < n, m ≤ k → Opens s k → (s n).line ≠ 0 → (s k).file ≠ (s n).file) :
    ((compareConsumers (s n) ((openers s m).map (consumerAt s n))).1 = true ↔
        (s n).line ≠ 0 ∧ ∃ k < m, Opens s k ∧ (s k).file = (s n).file) ∧
      (compareConsumers (s n) ((openers s m).map (consumerAt s n))).2 = (openers s m).map (consumerAt s (n + 1)) := by
  induction m with
  | zero =>
    refine ⟨iff_of_false Bool.false_ne_true ?_, rfl⟩
    rintro ⟨_, k, hlt, _⟩
    exact Nat.not_lt_zero k hlt
  | succ m ih =>
    by_cases hopens : Opens s m
    · have hlist : openers s (m + 1) = m :: openers s m := if_pos hopens
      have hcompared : ComparedWith s m n := by
        refine .inr ⟨hm, ?_⟩
        by_cases hzero : (s n).line = 0
        · exact .inl (.inl hzero)
        · exact .inr fun k hk hmk hk' => hnewer k hk hmk hk' hzero
      rw [hlist, List.map_cons, List.map_cons, consumerAt_of_compared hcompared]
      by_cases hfound : (s n).line ≠ 0 ∧ (s m).file = (s n).file
      · have hnot : ¬ Opens s n := not_opens_iff.mpr ⟨hfound.1, m, hm, hopens, hfound.2⟩
        have hcounted : CountedIn s m n := by
          refine .inr ⟨hm, hnot, fun k hk hmk hk' => hnewer k hk hmk hk' hfound.1, hfound.2⟩
        rw [if_pos hcounted, compareConsumers_hit hfound]
        refine ⟨iff_of_true rfl ⟨hfound.1, m, Nat.lt_succ_self m, hopens, hfound.2⟩, ?_⟩
        refine congrArg (List.cons _) (List.map_congr_left fun i hi => ?_)
        -- the older consumers are not reached
        obtain ⟨hlt, _⟩ := mem_openers.mp hi
        refine (consumerAt_of_not_compared ?_).symm
        rintro (heq | ⟨_, hopens' | hnone⟩)
        · omega
        · exact hnot hopens'
        · exact hnone m hm hlt hopens hfound.2
      · have hcounted : ¬ CountedIn s m n := by
          rintro (heq | ⟨_, hnot, _, hfile⟩)
          · omega
          · exact hfound ⟨(not_opens_iff.mp hnot).1, hfile⟩
        obtain ⟨hiff, hrest⟩ := ih (Nat.le_of_succ_le hm) fun k hk hmk hk' hline => by
          rcases Nat.eq_or_lt_of_le hmk with rfl | hlt
          · exact fun hfile => hfound ⟨hline, hfile⟩
          · exact hnewer k hk hlt hk' hline
        rw [if_neg hcounted, compareConsumers_miss hfound]
        refine ⟨hiff.trans (and_congr_right fun hline => ?_), ?_⟩
        · exact (exists_lt_succ_of_not fun h => hfound ⟨hline, h.2⟩).symm
        · rw [hrest]
          rfl
    · have hlist : openers s (m + 1) = openers s m := if_neg hopens
      obtain ⟨hiff, hrest⟩ := ih (Nat.le_of_succ_le hm) fun k hk hmk hk' hline => by
        rcases Nat.eq_or_lt_of_le hmk with rfl | hlt
        · exact absurd hk' hopens
        · exact hnewer k hk hlt hk' hline
      rw [hlist]
      refine ⟨hiff.trans (and_congr_right fun _ => ?_), hrest⟩
      exact (exists_lt_succ_of_not fun h => hopens h.1).symm

/-- **The consumers (proved)** are those that the conns open, each with the line of the last conn compared with it. -/
theorem consumers_eq (s : ℕ → CreatedAt) (n : ℕ) : ((List.range n).map s).foldl ConsumerList.addConn {} =
    { consumers := (openers s n).map (consumerAt s n)
      msgSize := linesSize ((openers s n).map s) } := by
  induction n with
  | zero => rfl
  | succ n ih =>
    obtain ⟨hiff, hrest⟩ := compareConsumers_openers (s := s) (Nat.le_refl n) fun k hk hnk => absurd hk (by omega)
    rw [← not_opens_iff] at hiff
    rw [List.range_succ, List.map_append, List.foldl_append, ih]
    show ConsumerList.addConn _ (s n) = _
    unfold ConsumerList.addConn
    simp only
    by_cases hopens : Opens s n
    · have hlist : openers s (n + 1) = n :: openers s n := if_pos hopens
      have hnew : consumerAt s (n + 1) n = ⟨s n, 1⟩ := by
        have hnone : countOf s n n = 0 := by
          refine List.length_eq_zero_iff.mpr (List.filter_eq_nil_iff.mpr fun j hj => ?_)
          have hlt := List.mem_range.mp hj
          rw [decide_eq_true_eq]
          rintro (heq | ⟨hlt', _⟩) <;> omega
        rw [consumerAt_of_compared (.inl rfl), if_pos (.inl rfl), hnone]
      rw [if_neg fun hfound => hiff.mp hfound hopens, hrest, hlist, List.map_cons, List.map_cons, hnew]
      refine congrArg (ConsumerList.mk _) ?_
      exact Nat.add_comm _ _
    · have hlist : openers s (n + 1) = openers s n := if_neg hopens
      rw [if_pos (hiff.mpr hopens), hrest, hlist]

end Positions

/-! ### The room -/

section Room

/-- `bufferLen` -/
theorem signed_ofNat (x : ℕ) : (BitVec.ofNat 32 x).toInt =
    if 2 * (x % 4294967296) < 4294967296 then ((x % 4294967296 : ℕ) : Int)
    else ((x % 4294967296 : ℕ) : Int) - 4294967296 := by
  rw [BitVec.toInt_eq_toNat_cond, BitVec.toNat_ofNat]
  rfl

/-- What is left of the room after a string that fits. -/
theorem room_sub {x len : ℕ} (h : (len : Int) < (BitVec.ofNat 32 x).toInt) :
    (BitVec.ofNat 32 (x - len)).toInt = (BitVec.ofNat 32 x).toInt - len ∧ len < x := by
  rw [signed_ofNat] at h ⊢
  rw [signed_ofNat]
  split at h
  · split <;> omega
  · omega

/-- **The strings are all written (proved)** exactly when their whole length is below the room. -/
theorem writeStrings_all (msgSize : ℕ) (strings : List (List UInt8)) : ∀ {msg : List UInt8},
    (∀ b ∈ (writeStrings msgSize msg strings).1, b = true) ↔
      strings = [] ∨ (strings.flatten.length : Int) < (BitVec.ofNat 32 (msgSize - msg.length)).toInt := by
  induction strings with
  | nil => exact fun {msg} => iff_of_true (fun b hb => absurd hb List.not_mem_nil) (.inl rfl)
  | cons string strings ih =>
    intro msg
    have hcons : (∀ b ∈ (writeStrings msgSize msg (string :: strings)).1, b = true) ↔
        (writeString msgSize msg string).1 = true ∧
          ∀ b ∈ (writeStrings msgSize (writeString msgSize msg string).2 strings).1, b = true :=
      List.forall_mem_cons
    rw [hcons, ih, or_iff_right (List.cons_ne_nil _ _), List.flatten_cons, List.length_append]
    by_cases hfits : (string.length : Int) < (BitVec.ofNat 32 (msgSize - msg.length)).toInt
    · have hwritten : writeString msgSize msg string = (true, msg ++ string) := if_pos ⟨by omega, hfits⟩
      obtain ⟨hroom, _⟩ := room_sub hfits
      have hleft : msgSize - (msg ++ string).length = msgSize - msg.length - string.length := by
        rw [List.length_append]
        omega
      rw [hwritten, hleft, hroom]
      constructor
      · rintro ⟨_, rfl | hlt⟩
        · exact hfits
        · omega
      · intro hlt
        exact ⟨rfl, .inr (by omega)⟩
    · have hnot : writeString msgSize msg string = (false, msg) := if_neg fun h => hfits h.2
      rw [hnot]
      refine iff_of_false (fun h => Bool.false_ne_true h.1) ?_
      omega

theorem decimal20_length {n : ℕ} (hn : n < 18446744073709551616) : (decimal20 n).length = 20 := by
  have hle : (decimal n).length ≤ 20 := by
    refine decimal_length 20 (by decide) ?_
    have hpow : Nat.pow 10 20 = 100000000000000000000 := rfl
    omega
  unfold decimal20
  rw [List.length_append, List.length_replicate]
  omega

/-- The line of a consumer is as long as that of a new one. -/
theorem Consumer.strings_length (e : Consumer) (h : e.count < 18446744073709551616) :
    e.strings.flatten.length = e.source.lineSize := by
  have hold := decimal20_length h
  have hnew : (decimal20 0).length = 20 := decimal20_length (by decide)
  simp only [CreatedAt.lineSize, Consumer.strings, List.flatten_cons, List.length_append, hold, hnew]

theorem strings_linesSize (es : List Consumer) (h : ∀ e ∈ es, e.count < 18446744073709551616) :
    (es.flatMap Consumer.strings).flatten.length = linesSize (es.map Consumer.source) := by
  induction es with
  | nil => rfl
  | cons e es ih =>
    rw [List.flatMap_cons, List.flatten_append, List.length_append, e.strings_length (h e List.mem_cons_self),
      ih fun e' he' => h e' (List.mem_cons_of_mem e he')]
    rfl

end Room

/-! ### The report -/

section Report

variable (r : LeakReport)

theorem sites_eq_map : (List.range r.sites.length).map r.site = r.sites := by
  refine List.ext_getElem (by rw [List.length_map, List.length_range]) fun i h₁ h₂ => ?_
  rw [List.getElem_map, List.getElem_range]
  unfold LeakReport.site
  rw [List.getD_eq_getElem?_getD, List.getElem?_eq_getElem h₂]
  rfl

/-- The first loop by position. -/
theorem list_eq : r.list =
    { consumers := (openers r.site r.sites.length).map (consumerAt r.site r.sites.length)
      msgSize := linesSize ((openers r.site r.sites.length).map r.site) } := by
  rw [← consumers_eq, sites_eq_map]
  unfold LeakReport.list LeakReport.sites
  rw [List.foldl_map, List.foldl_filter]

theorem msgSize_eq : r.msgSize = r.textRoom := by
  unfold LeakReport.msgSize LeakReport.textRoom
  rw [list_eq]
  show linesSize _ + _ + 1 = _ + linesSize _ + 1
  rw [Nat.add_comm (linesSize _)]

theorem map_source_consumerAt (s : ℕ → CreatedAt) (n : ℕ) (l : List ℕ) :
    (l.map (consumerAt s n)).map Consumer.source = l.map (placeOf s n) := by
  rw [List.map_map]
  rfl

theorem text_length : ((r.header ++ r.list.consumers.flatMap Consumer.strings).flatten.length) = r.textLength := by
  have hcount : ∀ e ∈ r.list.consumers, e.count < 18446744073709551616 := by
    rw [list_eq]
    intro e he
    obtain ⟨i, _, rfl⟩ := List.mem_map.mp he
    have hle : countOf r.site r.sites.length i ≤ r.sites.length := by
      unfold countOf
      exact Nat.le_trans (List.length_filter_le _ _) (Nat.le_of_eq List.length_range)
    have hsites : r.sites.length ≤ r.inUse.length := by
      unfold LeakReport.sites
      rw [List.length_map]
      exact List.length_filter_le _ _
    have hbounded := r.bounded
    show countOf r.site r.sites.length i < _
    omega
  rw [List.flatten_append, List.length_append, strings_linesSize _ hcount, list_eq]
  simp only [map_source_consumerAt]
  rfl

/-- **The message has room for all strings (proved)** exactly when the text is shorter than `bufferLen`. -/
theorem allWritten_iff : (∀ b ∈ (writeStrings r.msgSize [] (r.header ++ r.list.consumers.flatMap Consumer.strings)).1,
    b = true) ↔ (r.textLength : Int) < (BitVec.ofNat 32 r.textRoom).toInt := by
  rw [writeStrings_all, text_length, msgSize_eq, or_iff_right]
  · rfl
  · exact fun hnil => by cases hnil

/-- The sites at some place, counted by position. -/
theorem filter_sites (c : CreatedAt) : (r.sites.filter fun d => d = c).length =
    ((List.range r.sites.length).filter fun j => r.site j = c).length := by
  conv_lhs => rw [← sites_eq_map]
  rw [List.filter_map, List.length_map]
  rfl

theorem mem_sites_iff (c : CreatedAt) : c ∈ r.sites ↔ ∃ j < r.sites.length, r.site j = c := by
  conv_lhs => rw [← sites_eq_map]
  rw [List.mem_map]
  exact exists_congr fun j => and_congr_left fun _ => List.mem_range

/-- **One consumer for each place (proved),** by position. -/
theorem bySite_iff : BySite r.sites r.list.consumers ↔ EndsBySite r.site r.sites.length := by
  rw [list_eq]
  have hplace : ∀ c, c ∈ ((openers r.site r.sites.length).map (consumerAt r.site r.sites.length)).map Consumer.source ↔
      ∃ i < r.sites.length, Opens r.site i ∧ placeOf r.site r.sites.length i = c := by
    intro c
    rw [map_source_consumerAt, List.mem_map]
    exact exists_congr fun i => by rw [mem_openers, and_assoc]
  constructor
  · rintro ⟨hnodup, hmem, hcount⟩
    rw [map_source_consumerAt, List.nodup_map_iff_inj_on nodup_openers] at hnodup
    refine ⟨fun i hi k hk hi' hk' => hnodup i (mem_openers.mpr ⟨hi, hi'⟩) k (mem_openers.mpr ⟨hk, hk'⟩),
      fun i hi hi' => ?_, fun j hj => ?_⟩
    · have he := hcount _ (List.mem_map_of_mem (mem_openers.mpr ⟨hi, hi'⟩))
      rw [filter_sites] at he
      exact he
    · exact (hplace _).mp ((hmem _).mpr ((mem_sites_iff r _).mpr ⟨j, hj, rfl⟩))
  · rintro ⟨hinj, hcount, hall⟩
    refine ⟨?_, fun c => ?_, fun e he => ?_⟩
    · rw [map_source_consumerAt, List.nodup_map_iff_inj_on nodup_openers]
      intro i hi k hk
      exact hinj i (mem_openers.mp hi).1 k (mem_openers.mp hk).1 (mem_openers.mp hi).2 (mem_openers.mp hk).2
    · rw [hplace, mem_sites_iff]
      constructor
      · rintro ⟨i, hi, hi', rfl⟩
        -- the opener is counted, so that a conn is at the place
        have hself : i ∈ (List.range r.sites.length).filter fun j => CountedIn r.site i j :=
          List.mem_filter.mpr ⟨List.mem_range.mpr hi, decide_eq_true (.inl rfl)⟩
        have hpos : 0 < ((List.range r.sites.length).filter
            fun j => r.site j = placeOf r.site r.sites.length i).length := by
          rw [← hcount i hi hi']
          exact List.length_pos_of_mem hself
        obtain ⟨j, hj⟩ := List.exists_mem_of_length_pos hpos
        obtain ⟨hlt, heq⟩ := List.mem_filter.mp hj
        exact ⟨j, List.mem_range.mp hlt, of_decide_eq_true heq⟩
      · rintro ⟨j, hj, rfl⟩
        exact hall j hj
    · obtain ⟨i, hi, rfl⟩ := List.mem_map.mp he
      rw [filter_sites]
      exact hcount i (mem_openers.mp hi).1 (mem_openers.mp hi).2

end Report

/-! ### The places of the conns -/

section Places

variable {s : ℕ → CreatedAt} {n i j k : ℕ} {file : List UInt8}

/-- When there is a consumer for the file, the last one is found. -/
theorem lastOpener_spec (h : ∃ k < n, Opens s k ∧ (s k).file = file) :
    lastOpener s file n < n ∧ Opens s (lastOpener s file n) ∧ (s (lastOpener s file n)).file = file ∧
      ∀ k < n, lastOpener s file n < k → Opens s k → (s k).file ≠ file := by
  induction n with
  | zero =>
    obtain ⟨k, hk, _⟩ := h
    exact absurd hk (Nat.not_lt_zero k)
  | succ n ih =>
    rw [lastOpener]
    split
    next hlast => exact ⟨Nat.lt_succ_self n, hlast.1, hlast.2, fun k hk hlt => absurd hlt (by omega)⟩
    next hlast =>
      obtain ⟨hlt, hopens, hfile, hnone⟩ := ih ((exists_lt_succ_of_not hlast).mp h)
      refine ⟨Nat.lt_succ_of_lt hlt, hopens, hfile, fun k hk hlt' hk' hfile' => ?_⟩
      rcases Nat.lt_succ_iff_lt_or_eq.mp hk with hk | rfl
      · exact hnone k hk hlt' hk' hfile'
      · exact hlast ⟨hk', hfile'⟩

/-- The consumer of a conn is the newest one for its file. -/
theorem openerOf_spec (s : ℕ → CreatedAt) (j : ℕ) : openerOf s j ≤ j ∧ Opens s (openerOf s j) ∧
    (s (openerOf s j)).file = (s j).file ∧
      ∀ k ≤ j, openerOf s j < k → Opens s k → (s k).file ≠ (s j).file := by
  obtain ⟨i, hle, hopens, hfile⟩ := exists_opener s j
  obtain ⟨hlt, hlast, hsame, hnone⟩ := lastOpener_spec (n := j + 1) ⟨i, Nat.lt_succ_of_le hle, hopens, hfile⟩
  exact ⟨Nat.le_of_lt_succ hlt, hlast, hsame, fun k hk => hnone k (Nat.lt_succ_of_le hk)⟩

/-- A conn is counted in one consumer. -/
theorem countedIn_iff (hi : Opens s i) : CountedIn s i j ↔ openerOf s j = i := by
  obtain ⟨hle, hopens, hfile, hnone⟩ := openerOf_spec s j
  constructor
  · rintro (rfl | ⟨hlt, hnot, hbetween, hsame⟩)
    · by_contra hne
      exact hnone j (Nat.le_refl j) (by omega) hi rfl
    · rcases Nat.lt_trichotomy (openerOf s j) i with hlt' | heq | hlt'
      · exact absurd hsame (hnone i (by omega) hlt' hi)
      · exact heq
      · have hne : openerOf s j ≠ j := fun heq => hnot (heq ▸ hopens)
        exact absurd hfile (hbetween _ (by omega) hlt' hopens)
  · rintro rfl
    rcases Nat.eq_or_lt_of_le hle with heq | hlt
    · exact .inl heq.symm
    · exact .inr ⟨hlt, fun hj => hnone j (Nat.le_refl j) hlt hj rfl, fun k hk => hnone k (by omega), hfile⟩

theorem openerOf_self (hi : Opens s i) : openerOf s i = i := (countedIn_iff hi).mp (.inl rfl)

theorem countOf_eq (hi : Opens s i) :
    countOf s n i = ((List.range n).filter fun j => openerOf s j = i).length := by
  unfold countOf
  exact congrArg List.length (List.filter_congr fun _ _ => decide_eq_decide.mpr (countedIn_iff hi))

/-- How often a value occurs, by position. -/
theorem count_map_range (f : ℕ → CreatedAt) (c : CreatedAt) :
    ((List.range n).map f).count c = ((List.range n).filter fun j => f j = c).length := by
  rw [List.count, List.countP_map, List.countP_eq_length_filter]
  exact congrArg List.length (List.filter_congr fun _ _ => beq_eq_decide _ _)

/-- The conns that are reported at the place of a consumer are those that are counted in it, when no other one ends with
its place. -/
theorem count_reported (hinj : ∀ i < n, ∀ k < n, Opens s i → Opens s k → placeOf s n i = placeOf s n k → i = k)
    (hi : i < n) (hi' : Opens s i) : ((List.range n).map (reportedAt s n)).count (placeOf s n i) = countOf s n i := by
  rw [count_map_range, countOf_eq hi']
  refine congrArg List.length (List.filter_congr fun j hj => decide_eq_decide.mpr ⟨fun heq => ?_, fun heq => ?_⟩)
  · obtain ⟨hle, hopens, _⟩ := openerOf_spec s j
    have hj := List.mem_range.mp hj
    exact hinj _ (by omega) i hi hopens hi' heq
  · rw [reportedAt, heq]

/-- **The consumers end as they should (proved)** exactly when the conns are reported at the right places. -/
theorem endsBySite_iff : EndsBySite s n ↔ PlacesSettled s n := by
  constructor
  · rintro ⟨hinj, hcount, hall⟩
    refine ⟨List.perm_iff_count.mpr fun c => ?_, fun j hj k hk heq => ?_⟩
    · by_cases hplace : ∃ i < n, Opens s i ∧ placeOf s n i = c
      · obtain ⟨i, hi, hi', rfl⟩ := hplace
        rw [count_reported hinj hi hi', hcount i hi hi', count_map_range]
      · -- no conn was created there, and none is reported there
        have hsites : c ∉ (List.range n).map s := fun hin => by
          obtain ⟨j, hj, rfl⟩ := List.mem_map.mp hin
          exact hplace (hall j (List.mem_range.mp hj))
        have hreported : c ∉ (List.range n).map (reportedAt s n) := fun hin => by
          obtain ⟨j, hj, rfl⟩ := List.mem_map.mp hin
          obtain ⟨hle, hopens, _⟩ := openerOf_spec s j
          have hj := List.mem_range.mp hj
          exact hplace ⟨openerOf s j, by omega, hopens, rfl⟩
        rw [List.count_eq_zero_of_not_mem hsites, List.count_eq_zero_of_not_mem hreported]
    · obtain ⟨hle, hopens, _⟩ := openerOf_spec s j
      obtain ⟨hle', hopens', _⟩ := openerOf_spec s k
      exact hinj _ (by omega) _ (by omega) hopens hopens' heq
  · rintro ⟨hperm, hdistinct⟩
    have hinj : ∀ i < n, ∀ k < n, Opens s i → Opens s k → placeOf s n i = placeOf s n k → i = k := by
      intro i hi k hk hi' hk' heq
      have hsame := hdistinct i hi k hk (by rw [reportedAt, reportedAt, openerOf_self hi', openerOf_self hk', heq])
      rw [openerOf_self hi', openerOf_self hk'] at hsame
      exact hsame
    refine ⟨hinj, fun i hi hi' => ?_, fun j hj => ?_⟩
    · rw [← count_reported hinj hi hi', hperm.count_eq, count_map_range]
    · have hin : s j ∈ (List.range n).map s := List.mem_map_of_mem (List.mem_range.mpr hj)
      obtain ⟨k, hk, heq⟩ := List.mem_map.mp (hperm.mem_iff.mpr hin)
      obtain ⟨hle, hopens, _⟩ := openerOf_spec s k
      have hk := List.mem_range.mp hk
      exact ⟨openerOf s k, by omega, hopens, heq⟩

end Places

/-! ### Lines that are not 0 -/

section Lines

variable {s : ℕ → CreatedAt} {n i j k : ℕ}

/-- A file has one consumer. -/
theorem Opens.unique (hlines : ∀ k < n, (s k).line ≠ 0) (hi : i < n) (hk : k < n) (hi' : Opens s i) (hk' : Opens s k)
    (hfile : (s i).file = (s k).file) : i = k := by
  have hfirst : ∀ {m}, m < n → Opens s m → ∀ m' < m, (s m').file ≠ (s m).file := fun hm h =>
    h.resolve_left (hlines _ hm)
  rcases Nat.lt_trichotomy i k with hlt | heq | hlt
  · exact absurd hfile (hfirst hk hk' i hlt)
  · exact heq
  · exact absurd hfile.symm (hfirst hi hi' k hlt)

/-- All conns of its file are counted in it. -/
theorem counted_iff_file (hlines : ∀ k < n, (s k).line ≠ 0) (hi : i < n) (hi' : Opens s i) (hj : j < n) :
    CountedIn s i j ↔ (s j).file = (s i).file := by
  constructor
  · rintro (rfl | ⟨_, _, _, hfile⟩)
    · rfl
    · exact hfile.symm
  · intro hfile
    have hfirst := hi'.resolve_left (hlines i hi)
    rcases Nat.lt_trichotomy j i with hlt | heq | hlt
    · exact absurd hfile (hfirst j hlt)
    · exact .inl heq
    · have hnot : ¬ Opens s j := not_opens_iff.mpr ⟨hlines j hj, i, hlt, hi', hfile.symm⟩
      refine .inr ⟨hlt, hnot, fun k hk hik hk' hfile' => ?_, hfile.symm⟩
      have heq := hi'.unique hlines hi (Nat.lt_trans hk hj) hk' (hfile.symm.trans hfile'.symm)
      omega

/-- A place that a consumer ends with. -/
theorem eq_placeOf_iff {c : CreatedAt} :
    c = placeOf s n i ↔ c.file = (s i).file ∧ c.line = (s (lastCompared s i n)).line := by
  obtain ⟨file, line⟩ := c
  exact CreatedAt.mk.injEq .. ▸ Iff.rfl

theorem countOf_eq_file (hlines : ∀ k < n, (s k).line ≠ 0) (hi : i < n) (hi' : Opens s i) :
    (List.range n).filter (fun j => decide (CountedIn s i j)) =
      (List.range n).filter fun j => decide ((s j).file = (s i).file) :=
  List.filter_congr fun _ hj => decide_eq_decide.mpr (counted_iff_file hlines hi hi' (List.mem_range.mp hj))

/-- **Where no line is 0 (proved),** the places are right exactly when each conn has the line its consumer ends with. -/
theorem linesSettled_iff (hlines : ∀ k < n, (s k).line ≠ 0) : EndsBySite s n ↔ LinesSettled s n := by
  constructor
  · rintro ⟨_, hcount, _⟩ j hj i hi hi' hfile
    have hsub : ((List.range n).filter fun j => decide (s j = placeOf s n i)).Sublist
        ((List.range n).filter fun j => decide ((s j).file = (s i).file)) := by
      refine List.monotone_filter_right _ fun _ hj => ?_
      exact decide_eq_true (eq_placeOf_iff.mp (of_decide_eq_true hj)).1
    have hlength := hcount i hi hi'
    unfold countOf at hlength
    rw [countOf_eq_file hlines hi hi'] at hlength
    have hsame := hsub.eq_of_length hlength.symm
    have hmem : j ∈ (List.range n).filter fun j => decide ((s j).file = (s i).file) :=
      List.mem_filter.mpr ⟨List.mem_range.mpr hj, decide_eq_true hfile.symm⟩
    rw [← hsame] at hmem
    exact (eq_placeOf_iff.mp (of_decide_eq_true (List.mem_filter.mp hmem).2)).2
  · intro hsettled
    have hplace : ∀ j < n, ∀ i < n, Opens s i → (s i).file = (s j).file → s j = placeOf s n i :=
      fun j hj i hi hi' hfile => eq_placeOf_iff.mpr ⟨hfile.symm, hsettled j hj i hi hi' hfile⟩
    refine ⟨fun i hi k hk hi' hk' heq => ?_, fun i hi hi' => ?_, fun j hj => ?_⟩
    · exact hi'.unique hlines hi hk hk' (eq_placeOf_iff.mp heq).1
    · unfold countOf
      rw [countOf_eq_file hlines hi hi']
      refine congrArg List.length (List.filter_congr fun j hj => decide_eq_decide.mpr ?_)
      exact ⟨fun hfile => hplace j (List.mem_range.mp hj) i hi hi' hfile.symm, fun heq => (eq_placeOf_iff.mp heq).1⟩
    · obtain ⟨i, hle, hi', hfile⟩ := exists_opener s j
      have hi : i < n := by omega
      exact ⟨i, hi, hi', (hplace j hj i hi hi' hfile).symm⟩

end Lines

/-! ### The condition -/

/-- Where the lines are settled, the message is one octet larger than its text. -/
theorem textRoom_of_settled (r : LeakReport) (h : LinesSettled r.site r.sites.length) :
    r.textRoom = r.textLength + 1 := by
  have hsame : (openers r.site r.sites.length).map (placeOf r.site r.sites.length) =
      (openers r.site r.sites.length).map r.site := by
    refine List.map_congr_left fun i hi => ?_
    obtain ⟨hlt, hopens⟩ := mem_openers.mp hi
    unfold placeOf
    rw [← h i hlt i hlt hopens rfl]
  unfold LeakReport.textRoom LeakReport.textLength
  rw [hsame]

/-- **The report is exact (proved)** exactly when there is memory, and the consumers end with the places of their
conns. -/
theorem reportExact_iff (r : LeakReport) (memory : Bool) : ReportExact r memory ↔ memory = true ∧ r.Settled := by
  have hexact : ReportExact r memory ↔ memory = true ∧ EndsBySite r.site r.sites.length ∧
      (r.textLength : Int) < (BitVec.ofNat 32 r.textRoom).toInt := by
    rw [← bySite_iff, ← allWritten_iff]
    unfold ReportExact LeakReport.debugUnreleasedConns
    constructor
    · rintro ⟨results, msg, hprinted, hall, hsites⟩
      by_cases hmemory : memory = true
      · rw [if_pos hmemory] at hprinted
        cases hprinted
        exact ⟨hmemory, hsites, hall⟩
      · rw [if_neg hmemory] at hprinted
        cases hprinted
    · rintro ⟨hmemory, hsites, hall⟩
      exact ⟨_, _, if_pos hmemory, hall, hsites⟩
  rw [hexact]
  refine and_congr_right fun _ => ?_
  unfold LeakReport.Settled
  by_cases hlines : ∀ i < r.sites.length, (r.site i).line ≠ 0
  · rw [if_pos hlines, linesSettled_iff hlines]
    refine and_congr_right fun hsettled => ?_
    rw [textRoom_of_settled r hsettled, signed_ofNat]
    split <;> omega
  · rw [if_neg hlines, endsBySite_iff]

/-- Two conns of one file, created at lines 1 and 2. -/
def twoLines : LeakReport where
  identity := []
  cllist := none
  inUse := [⟨{}, ⟨[97], 1⟩⟩, ⟨{}, ⟨[97], 2⟩⟩]
  waited := 0
  bounded := by decide

/-- **Both are reported for line 2.** -/
theorem twoLines_merged : ¬ ReportExact twoLines true ∧ twoLines.list.consumers = [⟨⟨[97], 2⟩, 2⟩] := by
  refine ⟨?_, by decide⟩
  rintro ⟨_, _, _, _, hsites⟩
  have hmem := (hsites.mem ⟨[97], 1⟩).mpr (by decide)
  exact absurd hmem (by decide)

end Connio
