import Connio.Numerals

/-!
# The dump of a trace

`_TraceData` (`trace.c`) writes the data of a traced event in rows of sixteen octets: an offset, the octets in hexadecimal
and as characters.

* `DumpState`, `dumpOctet`, `traceDump` — the buffer of a row, one round of the loop, and the rows that are written;
* `dumpedRow`, `dumpedRows` — the row of some octets, and the rows of the data;
* `dumpOctet_row` — **PROVED**: after each round the buffer is the row of the octets it has taken since the last one;
* `traceDump_eq` — **PROVED**: what is written are the rows of the data;
* `readDump`, `reads_traceDump` — **PROVED**: the data is read back from them.
-/

namespace Connio

open Connio.Lib Connio.Lib.Reader

/-! ### The loop -/

/-- `"%8.8x"` of an `int` -/
def hexOffset (offset : ℕ) : List UInt8 := numeralText 16 hexChart 8 (offset % 4294967296)

theorem hexOffset_length (offset : ℕ) : (hexOffset offset).length = 8 :=
  numeralText_length (by decide) hexChart (Nat.mod_lt offset (by decide : 0 < 16 ^ 8))

/-- `dump`, `l`, `offset` and what has been passed to `traceWrite`. -/
structure DumpState where
  dump : List UInt8
  l : ℕ
  offset : ℕ
  rows : List (List UInt8)

/-- An empty row: `memset`, the newline, `sprintf` and the blank in the place of its NUL. -/
def emptyRow (dump : List UInt8) (offset : ℕ) : List UInt8 :=
  let dump := List.replicate 75 32 ++ dump.drop 75
  let dump := dump.set 75 10
  let dump := hexOffset offset ++ [0] ++ dump.drop 9
  dump.set 8 32

/-- The data ends a row: `traceWrite( dump, 76, 1, socket->trace )`, and an empty row. -/
def DumpState.nextRow (s : DumpState) : DumpState where
  dump := emptyRow s.dump (s.offset + 16)
  l := 0
  offset := s.offset + 16
  rows := s.rows ++ [s.dump.take 76]

/-- **One round of the loop of `_TraceData`.** -/
def dumpOctet (isprint : UInt8 → Bool) (s : DumpState) (c : UInt8) : DumpState :=
  let s := if s.l = 16 then s.nextRow else s
  let dump := s.dump.set (10 + s.l * 3) (hexChart (c.toNat / 16 % 16))
  let dump := dump.set (11 + s.l * 3) (hexChart (c.toNat % 16))
  let dump := dump.set (12 + s.l * 3) 32
  let dump := dump.set (59 + s.l) (if isprint c then c else 46)
  { s with dump := dump, l := s.l + 1 }

/-- The loop before its first round; `stack` is what the buffer of 80 octets holds before it is used. -/
def DumpState.start (stack : List UInt8) : DumpState where
  dump := emptyRow stack 0
  l := 0
  offset := 0
  rows := []

/-- **`_TraceData` of a trace with `TRACE_DUMP_DATA`:** what it passes to `traceWrite`. -/
def traceDump (isprint : UInt8 → Bool) (stack data : List UInt8) : List (List UInt8) :=
  let s := data.foldl (dumpOctet isprint) (.start stack)
  if s.l ≠ 0 then s.rows ++ [s.dump.take 76] else s.rows

/-! ### The rows -/

/-- An octet in hexadecimal, and a blank. -/
def hexPair (c : UInt8) : List UInt8 := [hexChart (c.toNat / 16 % 16), hexChart (c.toNat % 16), 32]

/-- The character of an octet. -/
def shown (isprint : UInt8 → Bool) (c : UInt8) : UInt8 := if isprint c then c else 46

/-- **The row of up to sixteen octets.** -/
def dumpedRow (isprint : UInt8 → Bool) (offset : ℕ) (row : List UInt8) : List UInt8 :=
  hexOffset offset ++ [32, 32] ++ row.flatMap hexPair ++ List.replicate (3 * (16 - row.length)) 32 ++ [32] ++
    row.map (shown isprint) ++ List.replicate (16 - row.length) 32 ++ [10]

/-- **The rows of the data.** -/
def dumpedRows (isprint : UInt8 → Bool) (offset : ℕ) (data : List UInt8) : List (List UInt8) :=
  if data = [] then []
  else dumpedRow isprint offset (data.take 16) :: dumpedRows isprint (offset + 16) (data.drop 16)
termination_by data.length
decreasing_by
  have hpos := List.length_pos_iff.mpr ‹data ≠ []›
  rw [List.length_drop]
  omega

section Loop

variable {isprint : UInt8 → Bool} {s : DumpState} {row : List UInt8}

theorem hexPairs_length (row : List UInt8) : (row.flatMap hexPair).length = 3 * row.length := by
  induction row with
  | nil => rfl
  | cons c row ih =>
    rw [List.flatMap_cons, List.length_append, ih, List.length_cons]
    show 3 + 3 * row.length = 3 * (row.length + 1)
    omega

theorem dumpedRow_length (isprint : UInt8 → Bool) (offset : ℕ) (hrow : row.length ≤ 16) :
    (dumpedRow isprint offset row).length = 76 := by
  simp only [dumpedRow, List.length_append, hexOffset_length, hexPairs_length, List.length_replicate, List.length_map,
    List.length_cons, List.length_nil]
  omega

/-- A store behind the end of a text. -/
theorem set_behind {l r : List UInt8} {b : UInt8} {i : ℕ} (k : ℕ) (hi : i = l.length + k) :
    (l ++ r).set i b = l ++ r.set k b := by
  rw [hi, List.set_append_right _ _ (Nat.le_add_right _ _), Nat.add_sub_cancel_left]

/-- **The buffer holds the row** of the octets that have been taken for it. -/
structure DumpState.Holds (isprint : UInt8 → Bool) (s : DumpState) (row : List UInt8) : Prop where
  l : s.l = row.length
  row_le : row.length ≤ 16
  dump : ∃ behind, behind.length = 4 ∧ s.dump = dumpedRow isprint s.offset row ++ behind

/-- **An empty row (proved)** is the row of no octets. -/
theorem emptyRow_eq (isprint : UInt8 → Bool) {dump : List UInt8} (hdump : dump.length = 80) (offset : ℕ) :
    ∃ behind, behind.length = 4 ∧ emptyRow dump offset = dumpedRow isprint offset [] ++ behind := by
  obtain ⟨x, behind, hbehind⟩ : ∃ x behind, dump.drop 75 = x :: behind :=
    List.exists_cons_of_ne_nil (List.ne_nil_of_length_pos (by rw [List.length_drop]; omega))
  have hlength : behind.length = 4 := by
    have h := congrArg List.length hbehind
    rw [List.length_drop, List.length_cons] at h
    omega
  refine ⟨behind, hlength, ?_⟩
  have hblank : (List.replicate 75 (32 : UInt8) ++ x :: behind).set 75 10 = List.replicate 75 32 ++ 10 :: behind :=
    set_behind 0 (by rw [List.length_replicate])
  have hnine : (List.replicate 75 (32 : UInt8) ++ 10 :: behind).drop 9 = List.replicate 66 32 ++ 10 :: behind := by
    rw [List.drop_append_of_le_length (by rw [List.length_replicate]; omega), List.drop_replicate]
  have hnul : (hexOffset offset ++ 0 :: (List.replicate 66 32 ++ 10 :: behind)).set 8 32 =
      hexOffset offset ++ 32 :: (List.replicate 66 32 ++ 10 :: behind) :=
    set_behind 0 (hexOffset_length offset).symm
  show ((hexOffset offset ++ [0] ++ ((List.replicate 75 (32 : UInt8) ++ dump.drop 75).set 75 10).drop 9).set 8 32) = _
  rw [hbehind, hblank, hnine, List.append_assoc, List.singleton_append, hnul]
  have hrow : dumpedRow isprint offset [] =
      hexOffset offset ++ 32 :: 32 :: (List.replicate 48 32 ++ 32 :: (List.replicate 16 32 ++ [10])) := by
    simp only [dumpedRow, List.append_assoc, List.flatMap_nil, List.map_nil, List.length_nil, List.nil_append,
      List.cons_append]
  rw [hrow, List.append_assoc]
  rfl

/-- **A row that is not full takes an octet (proved).** -/
theorem dumpOctet_row (h : s.Holds isprint row) (hrow : row.length < 16) (c : UInt8) :
    (dumpOctet isprint s c).Holds isprint (row ++ [c]) ∧ (dumpOctet isprint s c).rows = s.rows ∧
      (dumpOctet isprint s c).offset = s.offset := by
  obtain ⟨behind, hbehind, hdump⟩ := h.dump
  have hl := h.l
  have hnot : ¬ s.l = 16 := by omega
  have hstep : dumpOctet isprint s c = { s with
      dump := (((s.dump.set (10 + s.l * 3) (hexChart (c.toNat / 16 % 16))).set (11 + s.l * 3)
        (hexChart (c.toNat % 16))).set (12 + s.l * 3) 32).set (59 + s.l) (shown isprint c)
      l := s.l + 1 } := by
    simp only [dumpOctet, if_neg hnot]
    rfl
  rw [hstep]
  refine ⟨⟨?_, ?_, behind, hbehind, ?_⟩, rfl, rfl⟩
  · show s.l + 1 = (row ++ [c]).length
    rw [List.length_append, hl]
    rfl
  · rw [List.length_append]
    exact hrow
  · -- the four places that are stored to, in front of what is behind them
    obtain ⟨m, hm⟩ : ∃ m, 16 - row.length = m + 1 := ⟨15 - row.length, by omega⟩
    have hpairs : 3 * (16 - row.length) = 3 * m + 1 + 1 + 1 := by omega
    have hm' : 16 - (row ++ [c]).length = m := by
      rw [List.length_append, List.length_singleton]
      omega
    have hfront : (hexOffset s.offset ++ [32, 32] ++ row.flatMap hexPair).length = 10 + row.length * 3 := by
      simp only [List.length_append, hexOffset_length, hexPairs_length, List.length_cons, List.length_nil]
      omega
    generalize hF : hexOffset s.offset ++ [32, 32] ++ row.flatMap hexPair = F at hfront
    have hold : s.dump = F ++ 32 :: 32 :: 32 :: (List.replicate (3 * m) 32 ++ [32] ++ row.map (shown isprint) ++
        32 :: (List.replicate m 32 ++ [10] ++ behind)) := by
      rw [hdump, dumpedRow, hF, hpairs, hm]
      simp only [List.replicate_succ, List.append_assoc, List.cons_append, List.nil_append]
    have hnew : dumpedRow isprint s.offset (row ++ [c]) ++ behind =
        F ++ hexChart (c.toNat / 16 % 16) :: hexChart (c.toNat % 16) :: 32 :: (List.replicate (3 * m) 32 ++ [32] ++
          row.map (shown isprint) ++ shown isprint c :: (List.replicate m 32 ++ [10] ++ behind)) := by
      rw [dumpedRow, hm', List.flatMap_append, ← List.append_assoc, hF]
      simp only [List.flatMap_cons, List.flatMap_nil, hexPair, List.map_append, List.map_cons, List.map_nil,
        List.append_assoc, List.cons_append, List.nil_append]
    show (((s.dump.set (10 + s.l * 3) _).set (11 + s.l * 3) _).set (12 + s.l * 3) _).set (59 + s.l) _ = _
    rw [hnew, hold, hl, set_behind 0 (by omega), set_behind 1 (by omega), set_behind 2 (by omega),
      set_behind (3 * m + 1 + row.length + 3) (by omega)]
    simp only [List.set_cons_zero, List.set_cons_succ]
    have hchars : 3 * m + 1 + row.length =
        (List.replicate (3 * m) 32 ++ [32] ++ row.map (shown isprint)).length + 0 := by
      simp only [List.length_append, List.length_replicate, List.length_map, List.length_singleton, Nat.add_zero]
    rw [set_behind 0 hchars]
    rfl

/-- The row is written, and an empty one is begun. -/
theorem DumpState.Holds.nextRow (h : s.Holds isprint row) :
    s.nextRow.Holds isprint [] ∧ s.nextRow.rows = s.rows ++ [dumpedRow isprint s.offset row] := by
  obtain ⟨behind, hbehind, hdump⟩ := h.dump
  have hrow := dumpedRow_length isprint s.offset h.row_le
  have hlength : s.dump.length = 80 := by
    rw [hdump, List.length_append, hrow, hbehind]
  refine ⟨⟨rfl, Nat.zero_le _, emptyRow_eq isprint hlength _⟩, ?_⟩
  show s.rows ++ [s.dump.take 76] = _
  rw [hdump, List.take_left' hrow]

/-- **The rounds of the loop (proved):** the rows that are written and the one that is left are those of the data. -/
theorem dumpOctets_rows (data : List UInt8) : ∀ {s : DumpState} {row : List UInt8}, s.Holds isprint row →
    (let t := data.foldl (dumpOctet isprint) s
     if t.l ≠ 0 then t.rows ++ [t.dump.take 76] else t.rows) = s.rows ++ dumpedRows isprint s.offset (row ++ data) := by
  induction data with
  | nil =>
    intro s row h
    obtain ⟨behind, hbehind, hdump⟩ := h.dump
    show (if s.l ≠ 0 then s.rows ++ [s.dump.take 76] else s.rows) = s.rows ++ dumpedRows isprint s.offset (row ++ [])
    rw [List.append_nil, h.l]
    by_cases hempty : row = []
    · rw [hempty, dumpedRows, if_pos rfl, List.append_nil]
      exact if_neg fun hne => hne rfl
    · have hpos : row.length ≠ 0 := fun hzero => hempty (List.length_eq_zero_iff.mp hzero)
      rw [if_pos hpos, dumpedRows, if_neg hempty, List.take_of_length_le h.row_le, List.drop_of_length_le h.row_le,
        dumpedRows, if_pos rfl, hdump, List.take_left' (dumpedRow_length isprint s.offset h.row_le)]
  | cons c data ih =>
    intro s row h
    rw [List.foldl_cons]
    by_cases hfull : row.length = 16
    · obtain ⟨hnext, hrows⟩ := h.nextRow
      have hskip : dumpOctet isprint s c = dumpOctet isprint s.nextRow c := by
        have hl : s.l = 16 := h.l.trans hfull
        simp only [dumpOctet, if_pos hl]
        rfl
      obtain ⟨hholds, hsame, hoffset⟩ := dumpOctet_row hnext (by decide) c
      rw [hskip, ih hholds, hsame, hoffset, hrows, dumpedRows.eq_def isprint s.offset, if_neg (by simp),
        List.take_left' hfull, List.drop_left' hfull, List.append_assoc]
      rfl
    · have hrow : row.length < 16 := by
        have hle := h.row_le
        omega
      obtain ⟨hholds, hsame, hoffset⟩ := dumpOctet_row h hrow c
      rw [ih hholds, hsame, hoffset, List.append_assoc]
      rfl

/-- **What is written are the rows of the data (proved),** whatever the buffer held before. -/
theorem traceDump_eq (isprint : UInt8 → Bool) {stack : List UInt8} (hstack : stack.length = 80) (data : List UInt8) :
    traceDump isprint stack data = dumpedRows isprint 0 data :=
  dumpOctets_rows (s := .start stack) data ⟨rfl, Nat.zero_le _, emptyRow_eq isprint hstack 0⟩

end Loop

example : traceDump (fun c => 32 ≤ c ∧ c < 127) (List.replicate 80 0) [104, 105, 10] =
    [octetsOf "00000000  68 69 0a                                         hi.             \n"] := by
  decide

/-! ### The data is read back -/

/-- The octet of two hexadecimal digits and a blank. -/
def readPair : Reader UInt8 UInt8 := do
  let high ← symbol hexValue
  let low ← symbol hexValue
  expect [32]
  return (16 * high + low).toUInt8

/-- The octets of a row that has `n` of them. -/
def readRow (n : ℕ) : Reader UInt8 (List UInt8) := do
  let _ ← takeText 10
  let octets ← times readPair n
  let _ ← takeText (66 - 3 * n)
  return octets

/-- The `n` octets of the rows that are next. -/
def readDump (n : ℕ) : Reader UInt8 (List UInt8) :=
  if n = 0 then return []
  else do
    let octets ← readRow (min n 16)
    return octets ++ (← readDump (n - 16))
termination_by n

theorem reads_hexPair (c : UInt8) : readPair.Reads Anything (hexPair c) c := by
  have hlt := c.toNat_lt
  have hhigh : hexValue (hexChart (c.toNat / 16 % 16)) = some (c.toNat / 16 % 16) := hexDigits.2 _ (Nat.mod_lt _ (by decide))
  have hlow : hexValue (hexChart (c.toNat % 16)) = some (c.toNat % 16) := hexDigits.2 _ (Nat.mod_lt _ (by decide))
  have hvalue : (16 * (c.toNat / 16 % 16) + c.toNat % 16).toUInt8 = c := by
    have hsum : 16 * (c.toNat / 16 % 16) + c.toNat % 16 = c.toNat := by omega
    rw [hsum]
    exact UInt8.ofNat_toNat
  refine (reads_symbol hhigh).andThen ((reads_symbol hlow).andThen ((reads_expect [32]).andReturn ?_))
  rw [hvalue]

/-- A row is read back. -/
theorem reads_dumpedRow (isprint : UInt8 → Bool) (offset : ℕ) {row : List UInt8} (hrow : row.length ≤ 16) :
    (readRow row.length).Reads Anything (dumpedRow isprint offset row) row := by
  have hfront : (hexOffset offset ++ [32, 32]).length = 10 := by
    rw [List.length_append, hexOffset_length]
    rfl
  have hbehind : (List.replicate (3 * (16 - row.length)) 32 ++ [32] ++ row.map (shown isprint) ++
      List.replicate (16 - row.length) 32 ++ [10]).length = 66 - 3 * row.length := by
    simp only [List.length_append, List.length_replicate, List.length_map, List.length_cons, List.length_nil]
    omega
  have hparts : dumpedRow isprint offset row = hexOffset offset ++ [32, 32] ++ (row.flatMap hexPair ++
      (List.replicate (3 * (16 - row.length)) 32 ++ [32] ++ row.map (shown isprint) ++
        List.replicate (16 - row.length) 32 ++ [10])) := by
    simp only [dumpedRow, List.append_assoc]
  have hpairs : (times readPair row.length).Reads Anything (row.flatMap hexPair) (row.map id) :=
    reads_times reads_hexPair row
  rw [List.map_id] at hpairs
  rw [hparts]
  exact (reads_takeText hfront).andThen (hpairs.andThen ((reads_takeText hbehind).andReturn rfl))

/-- **The rows are read back (proved).** -/
theorem reads_dumpedRows (isprint : UInt8 → Bool) (offset : ℕ) (data : List UInt8) :
    (readDump data.length).Reads Anything (dumpedRows isprint offset data).flatten data := by
  fun_induction dumpedRows isprint offset data with
  | case1 offset =>
    rw [readDump, if_pos List.length_nil]
    exact Reads.pure _ []
  | case2 offset data hne ih =>
    have hpos : data.length ≠ 0 := fun hzero => hne (List.length_eq_zero_iff.mp hzero)
    have htake : (data.take 16).length = min data.length 16 := by
      rw [List.length_take, Nat.min_comm]
    have hfits : (data.take 16).length ≤ 16 := by omega
    have hrow := reads_dumpedRow isprint offset hfits
    rw [htake] at hrow
    rw [List.length_drop] at ih
    have hjoin : (List.take 16 data ++ List.drop 16 data) = data := List.take_append_drop 16 data
    rw [readDump, if_neg hpos, List.flatten_cons]
    refine hrow.andThen (ih.andReturn ?_)
    rw [hjoin]

/-- **The data is read back from what has been written (proved),** whatever it is. -/
theorem reads_traceDump (isprint : UInt8 → Bool) {stack : List UInt8} (hstack : stack.length = 80) (data : List UInt8) :
    (readDump data.length).Reads Anything (traceDump isprint stack data).flatten data := by
  rw [traceDump_eq isprint hstack]
  exact reads_dumpedRows isprint 0 data

end Connio
