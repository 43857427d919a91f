import Connio.Lib.Reader
import Connio.LogMessage

/-!
# Numbers in texts

What `printf` makes of a number, as a numeral that a reader can take.

* `hexChart`, `decimalDigit` — the digits, with `hexDigits` and `decimalDigits`;
* `decimal_eq`, `decimalInt_eq` — **PROVED**: `"%lu"` and `"%d"` are numerals;
* `XplTimer`, `XplTimer.printed` — a time, in seconds and milliseconds.
-/

namespace Connio

open Connio.Lib Connio.Lib.Reader

/-! ### Hexadecimal -/

/-- `hexChart` -/
def hexChart (d : ℕ) : UInt8 := [48, 49, 50, 51, 52, 53, 54, 55, 56, 57, 97, 98, 99, 100, 101, 102].getD d 0

/-- The value of a hexadecimal digit. -/
def hexValue (c : UInt8) : Option ℕ :=
  if 48 ≤ c ∧ c ≤ 57 then some (c.toNat - 48) else if 97 ≤ c ∧ c ≤ 102 then some (c.toNat - 87) else none

theorem hexDigits : Digits 16 hexChart hexValue := ⟨by decide, by decide⟩

/-! ### Decimal -/

def decimalDigit (d : ℕ) : UInt8 := 48 + d.toUInt8

def decimalValue (c : UInt8) : Option ℕ := if 48 ≤ c ∧ c ≤ 57 then some (c.toNat - 48) else none

theorem decimalDigits : Digits 10 decimalDigit decimalValue := ⟨by decide, by decide⟩

/-- `"%lu"` and `"%d"` are numerals. -/
theorem decimal_eq (n : ℕ) : decimal n = numeralText 10 decimalDigit 1 n := by
  induction n using Nat.strongRecOn with
  | ind n ih =>
    rw [decimal]
    by_cases hsmall : n < 10
    · rw [if_pos hsmall]
      by_cases hzero : n = 0
      · rw [hzero]
        rfl
      · rw [numeralText, Nat.digits_of_lt 10 n hzero hsmall]
        rfl
    · have hdigits : Nat.digits 10 n = n % 10 :: Nat.digits 10 (n / 10) := Nat.digits_def' (by decide) (by omega)
      have hne : Nat.digits 10 (n / 10) ≠ [] := Nat.digits_ne_nil_iff_ne_zero.mpr (by omega)
      have hpos := List.length_pos_iff.mpr hne
      have hpad : ∀ l : List UInt8, 0 < l.length → l.leftpad 1 (decimalDigit 0) = l := fun l hl => by
        rw [List.leftpad, Nat.sub_eq_zero_of_le hl]
        rfl
      rw [if_neg hsmall, ih (n / 10) (by omega), numeralText, numeralText, hdigits, List.reverse_cons, List.map_append,
        hpad, hpad]
      · rfl
      · rw [List.length_append]
        exact Nat.succ_pos _
      · rw [List.length_map, List.length_reverse]
        exact hpos

theorem decimalInt_eq (n : ℤ) : decimalInt n = integerText 10 decimalDigit 45 n := by
  rw [decimalInt, integerText, decimal_eq]

theorem reads_decimal (n : ℕ) : (numeral 10 decimalValue).Reads (NoDigit decimalValue) (decimal n) n := by
  rw [decimal_eq]
  exact reads_numeral decimalDigits 1 n

theorem reads_decimalInt (n : ℤ) :
    (integer 10 decimalValue 45).Reads (NoDigit decimalValue) (decimalInt n) n := by
  rw [decimalInt_eq]
  exact reads_integer decimalDigits (by decide) n

/-! ### Times -/

structure XplTimer where
  sec : ℕ
  usec : ℕ
  deriving DecidableEq, Repr

/-- `"%lu.%03lu"` of the seconds and the milliseconds. -/
def XplTimer.printed (t : XplTimer) : List UInt8 :=
  [decimal t.sec, octetsOf ".", numeralText 10 decimalDigit 3 (t.usec / 1000)].flatten

end Connio
