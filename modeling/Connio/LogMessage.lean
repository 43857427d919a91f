import Connio.Lib.Span

/-!
# Log lines

`socketLogMessage` (`socklog.c`): a line of a trace, put together in a buffer of 256 octets.

* `LogLine` — the cursor, the octets before it and all stores that were made;
* `LogLine.put`, `LogLine.sprintf`, `LogLine.memcpy`, `LogLine.padTo` — what moves the cursor;
* `logPrefix`, `socketLogMessage` — the line up to the message, and the whole line;
* `logPrefix_at` — **PROVED**: where the message starts;
* `LogSound` — all stores are in the buffer, and the line ends with a newline and has the message or a prefix of it;
* `logSound_iff` — **PROVED**: the line is sound only for a message shorter than the room it is given.
-/

namespace Connio

open Connio.Lib

/-- `sizeof( buffer )` -/
def logBufferSize : ℕ := 256

/-! ### The cursor -/

/-- The line so far: `ptr - buffer`, the octets before `ptr`, and the stores, oldest first. -/
structure LogLine where
  ptr : Int
  octets : List UInt8
  stores : List Span
  deriving DecidableEq, Repr

namespace LogLine

def empty : LogLine where
  ptr := 0
  octets := []
  stores := []

/-- `*ptr = c; ptr++` -/
def put (l : LogLine) (c : UInt8) : LogLine where
  ptr := l.ptr + 1
  octets := l.octets ++ [c]
  stores := l.stores ++ [⟨l.ptr, 1⟩]

/-- `*ptr = '\0'`, which is not part of the line. -/
def terminate (l : LogLine) : LogLine := { l with stores := l.stores ++ [⟨l.ptr, 1⟩] }

/-- `ptr += sprintf( ptr, ... )`, which stores a NUL behind the text. -/
def sprintf (l : LogLine) (text : List UInt8) : LogLine where
  ptr := l.ptr + text.length
  octets := l.octets ++ text
  stores := l.stores ++ [⟨l.ptr, text.length + 1⟩]

/-- `memcpy( ptr, text, len ); ptr += len`; a negative length moves back. -/
def memcpy (l : LogLine) (text : List UInt8) (len : Int) : LogLine where
  ptr := l.ptr + len
  octets := (l.octets ++ text.take len.toNat).take (l.octets.length + len).toNat
  stores := l.stores ++ [⟨l.ptr, sizeT len⟩]

/-- `while( ( ptr - buffer ) + len < width )` a blank is put. -/
def padTo (width len : Int) (l : LogLine) : LogLine :=
  if l.ptr + len < width then padTo width len (l.put 32) else l
termination_by (width - len - l.ptr).toNat
decreasing_by
  simp only [put]
  omega

/-- The line stands at `n`: nothing is stored beyond the next octet. -/
structure At (l : LogLine) (n : ℕ) : Prop where
  ptr : l.ptr = n
  octets : l.octets.length = n
  within : ∀ s ∈ l.stores, s.Within (n + 1)

section Moves

variable {l : LogLine} {n : ℕ}

theorem At.empty : LogLine.empty.At 0 := ⟨rfl, rfl, fun _ h => (by cases h)⟩

/-- A store at the cursor stays within what it fills. -/
theorem At.stored (h : l.At n) {count m : ℕ} (hcount : n + count ≤ m + 1) (hle : n ≤ m) :
    ∀ s ∈ l.stores ++ [⟨l.ptr, count⟩], s.Within (m + 1) := by
  intro s hs
  rcases List.mem_append.mp hs with hs | hs
  · exact (h.within s hs).mono (by omega)
  · obtain rfl := List.mem_singleton.mp hs
    have hptr := h.ptr
    exact ⟨by simp only; omega, by simp only; omega⟩

theorem At.put (h : l.At n) (c : UInt8) : (l.put c).At (n + 1) := by
  refine ⟨?_, ?_, h.stored (by omega) (by omega)⟩
  · simp only [LogLine.put, h.ptr]
    omega
  · simp only [LogLine.put, List.length_append, h.octets, List.length_singleton]

theorem At.sprintf (h : l.At n) (text : List UInt8) : (l.sprintf text).At (n + text.length) := by
  refine ⟨?_, ?_, h.stored (by omega) (by omega)⟩
  · simp only [LogLine.sprintf, h.ptr]
    omega
  · simp only [LogLine.sprintf, List.length_append, h.octets]

/-- The octets after a copy that is not longer than the text. -/
theorem memcpy_octets (l : LogLine) {text : List UInt8} {len : ℕ} (hlen : len ≤ text.length) :
    (l.memcpy text len).octets = l.octets ++ text.take len := by
  have hlength : (l.octets ++ text.take len).length = l.octets.length + len := by
    rw [List.length_append, List.length_take_of_le hlen]
  simp only [LogLine.memcpy, Int.toNat_natCast, ← Int.natCast_add]
  rw [← hlength, List.take_length]

theorem At.memcpy (h : l.At n) {text : List UInt8} {len : ℕ} (hlen : len ≤ text.length) :
    (l.memcpy text len).At (n + len) := by
  refine ⟨?_, ?_, ?_⟩
  · simp only [LogLine.memcpy, h.ptr]
    omega
  · rw [memcpy_octets l hlen, List.length_append, List.length_take_of_le hlen, h.octets]
  · simp only [LogLine.memcpy, sizeT_natCast]
    exact h.stored (by omega) (by omega)

/-- **Padding (proved):** up to the width, or nothing. -/
theorem At.padTo (width len : ℕ) : ∀ {l : LogLine} {n : ℕ}, l.At n →
    (LogLine.padTo width len l).At (max n (width - len)) := by
  intro l n h
  generalize hgap : width - len - n = gap
  induction gap generalizing l n with
  | zero =>
    have hptr := h.ptr
    have hmax : max n (width - len) = n := by omega
    unfold LogLine.padTo
    rw [if_neg (by omega), hmax]
    exact h
  | succ gap ih =>
    have hptr := h.ptr
    have hmax : max n (width - len) = max (n + 1) (width - len) := by omega
    unfold LogLine.padTo
    rw [if_pos (by omega), hmax]
    exact ih (h.put 32) (by omega)

end Moves

end LogLine

/-! ### The pieces -/

/-- The octets of a text. -/
def octetsOf (text : String) : List UInt8 := text.toList.map fun c => c.toNat.toUInt8

/-- The digits of a number. -/
def decimal (n : ℕ) : List UInt8 :=
  if n < 10 then [48 + n.toUInt8] else decimal (n / 10) ++ [48 + (n % 10).toUInt8]

/-- `"%d"` -/
def decimalInt (n : Int) : List UInt8 := if n < 0 then 45 :: decimal n.natAbs else decimal n.natAbs

/-- `strlen` as an `int` -/
def strlenInt (text : List UInt8) : Int := (BitVec.ofNat 32 text.length).toInt

/-- `strrchr`: the text from the last `c` on. -/
def strrchr (c : UInt8) : List UInt8 → Option (List UInt8)
  | [] => none
  | x :: text => (strrchr c text).or (if x = c then some (x :: text) else none)

/-- The file name part of a path. -/
def fileName (path : List UInt8) : List UInt8 :=
  match strrchr 47 path with
  | some file => file.tail
  | none => path

/-- `socketLogMessage` up to the message: the thread, the file and the line, in columns. -/
def logPrefix (tid : BitVec 32) (path : List UInt8) (line : BitVec 32) : LogLine :=
  let l := (LogLine.empty.sprintf (decimalInt tid.toInt)).put 32
  let file := fileName path
  let len := strlenInt file
  let l := (LogLine.padTo 25 len l).memcpy file len
  let l := l.sprintf (58 :: decimalInt line.toInt)
  (LogLine.padTo 33 0 l).put 32

/-- `socketLogMessage`; `socket` says that there is one. -/
def socketLogMessage (socket : Bool) (tid : BitVec 32) (msg path : List UInt8) (line : BitVec 32) : Option LogLine :=
  if socket then
    let l := logPrefix tid path line
    let len := strlenInt msg
    let space : Int := logBufferSize - l.ptr - 1
    let len := if space < len then space else len
    some ((l.memcpy msg len).put 10).terminate
  else none

/-- What `socketTraceAppend` is given. -/
def LogLine.appended (l : LogLine) : List UInt8 := l.octets.take l.ptr.toNat

section Pieces

theorem decimal_length : ∀ (k : ℕ) {n : ℕ}, 0 < k → n < Nat.pow 10 k → (decimal n).length ≤ k := by
  intro k
  induction k with
  | zero =>
    intro n hk
    exact absurd hk (Nat.lt_irrefl 0)
  | succ k ih =>
    intro n _ hn
    unfold decimal
    split
    · exact Nat.succ_le_succ (Nat.zero_le k)
    next hlarge =>
      have hpow : Nat.pow 10 (k + 1) = Nat.pow 10 k * 10 := rfl
      have hk : 0 < k := by
        rcases Nat.eq_zero_or_pos k with rfl | hpos
        · exact absurd hn hlarge
        · exact hpos
      have hle := ih hk (n := n / 10) (by omega)
      rw [List.length_append, List.length_singleton]
      omega

/-- An `int` takes at most eleven characters. -/
theorem decimalInt_length (n : BitVec 32) : (decimalInt n.toInt).length ≤ 11 := by
  have hlt := BitVec.toInt_lt (x := n)
  have hge := BitVec.le_toInt (x := n)
  have hdigits : (decimal n.toInt.natAbs).length ≤ 10 := by
    refine decimal_length 10 (by decide) ?_
    have hpow : Nat.pow 10 10 = 10000000000 := rfl
    omega
  unfold decimalInt
  split
  · rw [List.length_cons]
    omega
  · omega

/-- The length of a text that is not too long. -/
theorem strlenInt_eq {text : List UInt8} (h : text.length < 2147483648) : strlenInt text = text.length := by
  unfold strlenInt
  rw [BitVec.toInt_eq_toNat_cond, BitVec.toNat_ofNat]
  split <;> omega

theorem strlenInt_le (text : List UInt8) : strlenInt text ≤ text.length := by
  unfold strlenInt
  rw [BitVec.toInt_eq_toNat_cond, BitVec.toNat_ofNat]
  have hmod := Nat.mod_le text.length 4294967296
  split <;> omega

theorem strlenInt_ge (text : List UInt8) : -2147483648 ≤ strlenInt text :=
  BitVec.le_toInt (x := BitVec.ofNat 32 text.length)

end Pieces

/-! ### The line -/

/-- What is logged where: a path whose file name is not too long. -/
structure LogCall where
  tid : BitVec 32
  msg : List UInt8
  path : List UInt8
  line : BitVec 32
  short : (fileName path).length ≤ 100

/-- The column at which the message starts. -/
def LogCall.column (c : LogCall) : ℕ :=
  let file := (fileName c.path).length
  max (max ((decimalInt c.tid.toInt).length + 1) (25 - file) + file + (1 + (decimalInt c.line.toInt).length)) 33 + 1

/-- The line of a call. -/
def LogCall.logged (c : LogCall) : Option LogLine := socketLogMessage true c.tid c.msg c.path c.line

/-- **All stores are in the buffer,** the line ends with a newline, and before it there is the message or a prefix. -/
structure LogSound (c : LogCall) (l : LogLine) : Prop where
  within : ∀ s ∈ l.stores, s.Within logBufferSize
  newline : l.appended.getLast? = some 10
  message : ∃ n, l.appended = (logPrefix c.tid c.path c.line).octets ++ c.msg.take n ++ [10]

def LogCall.Sound (c : LogCall) : Prop := ∃ l, c.logged = some l ∧ LogSound c l

section Line

variable {c : LogCall}

theorem LogCall.column_le (c : LogCall) : c.column ≤ 125 := by
  have hfile := c.short
  have htid := decimalInt_length c.tid
  have hline := decimalInt_length c.line
  unfold LogCall.column
  simp only
  omega

/-- **The message starts at its column (proved).** -/
theorem logPrefix_at (c : LogCall) : (logPrefix c.tid c.path c.line).At c.column := by
  have hfile := c.short
  have hlen : strlenInt (fileName c.path) = (fileName c.path).length := strlenInt_eq (by omega)
  unfold logPrefix
  simp only [hlen]
  have hthread := (LogLine.At.empty.sprintf (decimalInt c.tid.toInt)).put 32
  have hname := (hthread.padTo 25 (fileName c.path).length).memcpy (Nat.le_refl (fileName c.path).length)
  have hplace := ((hname.sprintf (58 :: decimalInt c.line.toInt)).padTo 33 0).put 32
  have hcolumn : c.column = max (max (0 + (decimalInt c.tid.toInt).length + 1) (25 - (fileName c.path).length) +
      (fileName c.path).length + (58 :: decimalInt c.line.toInt).length) (33 - 0) + 1 := by
    unfold LogCall.column
    rw [List.length_cons]
    simp only
    omega
  rw [hcolumn]
  exact hplace

/-- What is copied of the message. -/
def LogCall.copied (c : LogCall) : Int := min (strlenInt c.msg) (255 - c.column)

/-- **The line of a call (proved).** -/
theorem LogCall.logged_eq (c : LogCall) : c.logged =
    some ((((logPrefix c.tid c.path c.line).memcpy c.msg c.copied).put 10).terminate) := by
  have hptr := (logPrefix_at c).ptr
  have hcopied : (if (logBufferSize : Int) - c.column - 1 < strlenInt c.msg then (logBufferSize : Int) - c.column - 1
      else strlenInt c.msg) = c.copied := by
    unfold LogCall.copied logBufferSize
    split <;> omega
  unfold LogCall.logged socketLogMessage
  simp only [if_true, hptr, hcopied]

/-- A message that leaves room, and whose length is an `int`. -/
theorem LogCall.sound_of_short (hnonneg : 0 ≤ strlenInt c.msg) (hroom : strlenInt c.msg + c.column < 255) :
    c.Sound := by
  refine ⟨_, c.logged_eq, ?_⟩
  obtain ⟨len, hlen⟩ : ∃ len : ℕ, c.copied = len := ⟨c.copied.toNat, by unfold LogCall.copied; omega⟩
  have hle : len ≤ c.msg.length := by
    have := strlenInt_le c.msg
    unfold LogCall.copied at hlen
    omega
  have hend : c.column + len < 255 := by
    unfold LogCall.copied at hlen
    omega
  rw [hlen]
  have hline := ((logPrefix_at c).memcpy hle).put 10
  have happended : (((((logPrefix c.tid c.path c.line).memcpy c.msg len).put 10).terminate).appended) =
      (logPrefix c.tid c.path c.line).octets ++ c.msg.take len ++ [10] := by
    unfold LogLine.appended LogLine.terminate
    simp only [hline.ptr, Int.toNat_natCast]
    rw [← hline.octets, List.take_length, ← LogLine.memcpy_octets _ hle]
    rfl
  refine ⟨fun s hs => ?_, ?_, len, happended⟩
  · have hwithin : s.Within ((c.column + len + 1 : ℕ) + 1) := hline.stored (Nat.le_refl _) (Nat.le_refl _) s hs
    exact hwithin.mono (by unfold logBufferSize; omega)
  · rw [happended, List.getLast?_concat]

/-- A line whose stores are in the buffer has left room. -/
theorem LogCall.Sound.short (h : c.Sound) : 0 ≤ strlenInt c.msg ∧ strlenInt c.msg + c.column < 255 := by
  obtain ⟨l, hl, hsound⟩ := h
  rw [c.logged_eq] at hl
  cases hl
  have hptr := (logPrefix_at c).ptr
  have hcolumn := c.column_le
  have hge := strlenInt_ge c.msg
  have hcopy := hsound.within ⟨(logPrefix c.tid c.path c.line).ptr, sizeT c.copied⟩ (by
    simp [LogLine.terminate, LogLine.put, LogLine.memcpy])
  have hnul := hsound.within ⟨(logPrefix c.tid c.path c.line).ptr + c.copied + 1, 1⟩ (by
    simp [LogLine.terminate, LogLine.put, LogLine.memcpy])
  unfold Span.Within at hcopy hnul
  unfold logBufferSize at hcopy hnul
  simp only [hptr, sizeT] at hcopy hnul
  have hcopied : c.copied = min (strlenInt c.msg) (255 - c.column) := rfl
  split at hcopy <;> omega

/-- **A log line (proved):** sound only for a message that leaves room for the newline and the NUL. -/
theorem logSound_iff (c : LogCall) : c.Sound ↔ 0 ≤ strlenInt c.msg ∧ strlenInt c.msg + c.column < 255 :=
  ⟨LogCall.Sound.short, fun h => LogCall.sound_of_short h.1 h.2⟩

end Line

/-! ### A message that just fills the line -/

/-- `a.c:1` of thread 1: the message starts at column 34 and is as long as the room that is left. -/
def fullLine : LogCall where
  tid := 1
  msg := List.replicate 221 120
  path := [97, 46, 99]
  line := 1
  short := by decide

/-- **The NUL is stored behind the buffer.** -/
theorem log_overruns : ¬ ∀ c : LogCall, c.Sound := by
  intro h
  have hshort := (h fullLine).short.2
  have hmsg : fullLine.msg.length = 221 := List.length_replicate
  have hlength := @strlenInt_eq fullLine.msg (by omega)
  have hcolumn : 34 ≤ fullLine.column := Nat.succ_le_succ (Nat.le_max_right _ 33)
  omega

end Connio
