import Mathlib.Data.List.Basic

/-!
# What is stored in a buffer

A store fills a span of a buffer: an offset from its start, and a number of items.  The offset is an integer, so that a
store before the start can be said.

* `Span`, `Span.Within` — a span, and that it lies in a buffer of a size;
* `sizeT` — an integer as the count of a store;
* `Filled` — spans that fill a buffer from its start, one after the other;
* `Filled.append` — **PROVED**: the next span starts where the last one ends.
-/

namespace Connio.Lib

structure Span where
  offset : Int
  count : ℕ
  deriving DecidableEq, Repr

namespace Span

/-- **The span lies in a buffer of `size` items.** -/
def Within (size : Int) (s : Span) : Prop := 0 ≤ s.offset ∧ s.offset + s.count ≤ size

theorem Within.mono {s : Span} {size size' : Int} (h : s.Within size) (hle : size ≤ size') : s.Within size' :=
  ⟨h.1, Int.le_trans h.2 hle⟩

/-- The items stored by spans, repetitions counted. -/
def total (l : List Span) : ℕ := l.foldr (fun s n => s.count + n) 0

theorem total_append (l : List Span) (s : Span) : total (l ++ [s]) = total l + s.count := by
  induction l with
  | nil => exact Nat.add_comm s.count 0
  | cons t l ih =>
    change t.count + total (l ++ [s]) = t.count + total l + s.count
    rw [ih, Nat.add_assoc]

end Span

/-- An integer as an unsigned count of 64 bits: a negative one wraps. -/
def sizeT (count : Int) : ℕ := (if 0 ≤ count then count else 18446744073709551616 + count).toNat

theorem sizeT_natCast (count : ℕ) : sizeT count = count := by
  simp [sizeT]

/-- **The spans fill the first `n` items,** each once. -/
structure Filled (l : List Span) (n : Int) : Prop where
  within : ∀ s ∈ l, s.Within n
  total : (Span.total l : Int) = n

namespace Filled

variable {l : List Span} {n : Int}

theorem nil : Filled [] 0 := ⟨fun _ h => (by cases h), rfl⟩

theorem nonneg (h : Filled l n) : 0 ≤ n := h.total ▸ Int.natCast_nonneg _

theorem append (h : Filled l n) (count : ℕ) : Filled (l ++ [⟨n, count⟩]) (n + count) := by
  refine ⟨fun s hs => ?_, ?_⟩
  · rcases List.mem_append.mp hs with hs | hs
    · exact (h.within s hs).mono (by omega)
    · obtain rfl := List.mem_singleton.mp hs
      exact ⟨h.nonneg, Int.le_refl _⟩
  · rw [Span.total_append, Int.natCast_add, h.total]

theorem within_of_le (h : Filled l n) {size : Int} (hle : n ≤ size) : ∀ s ∈ l, s.Within size :=
  fun s hs => (h.within s hs).mono hle

end Filled

end Connio.Lib
