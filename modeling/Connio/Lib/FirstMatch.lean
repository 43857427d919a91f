import Mathlib.Data.List.Basic

/-!
# The first match in a stream

A search for a pattern in a stream of which only a part has arrived.  A `Matcher` says where the first match
begins and how long it is; what it reports on a part of the stream stays true when more arrives, and does
not depend on what precedes the match.

* `Matcher` — the search with its laws;
* `Matcher.NoneBefore` — no match begins in a prefix, whatever arrives after it;
* `Matcher.firstMatch_append_drop` — such a prefix can be dropped;
* `firstMatch`, `Matcher.literal` — the matches of a fixed word.
-/

namespace Connio.Lib

variable {α : Type}

/-- Where the first match begins, and its length. -/
structure Matcher (α : Type) where
  firstMatch : List α → Option (ℕ × ℕ)
  le : ∀ {s p l}, firstMatch s = some (p, l) → p + l ≤ s.length
  /-- what arrives later does not change a match -/
  extend : ∀ {s p l} (t : List α), firstMatch s = some (p, l) → firstMatch (s ++ t) = some (p, l)
  /-- what precedes a match does not matter -/
  drop : ∀ {s p l k}, firstMatch s = some (p, l) → k ≤ p → firstMatch (s.drop k) = some (p - k, l)
  drop_none : ∀ {s k}, firstMatch s = none → firstMatch (s.drop k) = none

namespace Matcher

variable (m : Matcher α)

/-- **No match begins in the first `n` items,** whatever arrives after `s`. -/
def NoneBefore (s : List α) (n : ℕ) : Prop := ∀ t p l, m.firstMatch (s ++ t) = some (p, l) → n ≤ p

variable {m}

/-- A prefix in which no match begins can be dropped. -/
theorem firstMatch_append_drop {s t : List α} {n : ℕ} (h : m.NoneBefore s n) :
    m.firstMatch ((s ++ t).drop n) = (m.firstMatch (s ++ t)).map fun r => (r.1 - n, r.2) := by
  cases hm : m.firstMatch (s ++ t) with
  | none => exact m.drop_none hm
  | some r => exact m.drop hm (h t r.1 r.2 hm)

end Matcher

/-! ### The matches of a fixed word -/

variable [DecidableEq α]

/-- Where the first match of `w` begins. -/
def firstMatch (w : List α) : List α → Option ℕ
  | [] => if w = [] then some 0 else none
  | x :: s => if w <+: x :: s then some 0 else (firstMatch w s).map (· + 1)

/-- **The first match is a match, and none precedes it.** -/
theorem firstMatch_eq_some {w : List α} : ∀ {s : List α} {p : ℕ},
    firstMatch w s = some p ↔ w <+: s.drop p ∧ p ≤ s.length ∧ ∀ q < p, ¬ w <+: s.drop q := by
  intro s
  induction s with
  | nil =>
    intro p
    by_cases hw : w = []
    · subst hw
      simp only [firstMatch, if_true, Option.some.injEq]
      constructor
      · rintro rfl
        simp
      · rintro ⟨_, hp, _⟩
        exact (Nat.le_zero.mp hp).symm
    · simp [firstMatch, hw]
  | cons x s ih =>
    intro p
    by_cases hw : w <+: x :: s
    · simp only [firstMatch, hw, if_true, Option.some.injEq]
      constructor
      · rintro rfl
        exact ⟨hw, Nat.zero_le _, fun q hq => absurd hq (Nat.not_lt_zero q)⟩
      · rintro ⟨_, _, hnone⟩
        by_contra hne
        exact hnone 0 (Nat.pos_of_ne_zero fun h0 => hne h0.symm) hw
    · simp only [firstMatch, hw, if_false, Option.map_eq_some_iff]
      constructor
      · rintro ⟨p', hp', rfl⟩
        obtain ⟨hmatch, hle, hnone⟩ := ih.mp hp'
        refine ⟨hmatch, Nat.succ_le_succ hle, fun q hq => ?_⟩
        cases q with
        | zero => exact hw
        | succ q => exact hnone q (by omega)
      · rintro ⟨hmatch, hle, hnone⟩
        cases p with
        | zero => exact absurd hmatch hw
        | succ p =>
          refine ⟨p, ih.mpr ⟨hmatch, Nat.le_of_succ_le_succ hle, fun q hq => ?_⟩, rfl⟩
          exact hnone (q + 1) (by omega)

theorem firstMatch_eq_none {w s : List α} :
    firstMatch w s = none ↔ ∀ p ≤ s.length, ¬ w <+: s.drop p := by
  constructor
  · intro h p
    induction p using Nat.strongRecOn with
    | _ p ih =>
      intro hp hmatch
      have hsome := firstMatch_eq_some.mpr
        ⟨hmatch, hp, fun q hq => ih q hq (Nat.le_trans (Nat.le_of_lt hq) hp)⟩
      rw [h] at hsome
      cases hsome
  · intro h
    cases hm : firstMatch w s with
    | none => rfl
    | some p =>
      obtain ⟨hmatch, hle, _⟩ := firstMatch_eq_some.mp hm
      exact absurd hmatch (h p hle)

omit [DecidableEq α] in
/-- A match at `p` reaches no further than the list. -/
theorem add_length_le_of_prefix_drop {w s : List α} {p : ℕ} (h : w <+: s.drop p) (hp : p ≤ s.length) :
    p + w.length ≤ s.length := by
  have hle := h.length_le
  rw [List.length_drop] at hle
  omega

omit [DecidableEq α] in
/-- A match of a longer list that ends inside `s` is a match of `s`. -/
theorem prefix_drop_of_append {w s t : List α} {p : ℕ} (h : w <+: (s ++ t).drop p)
    (hle : p + w.length ≤ s.length) : w <+: s.drop p := by
  rw [List.drop_append_of_le_length (by omega)] at h
  exact List.prefix_of_prefix_length_le h (List.prefix_append _ _) (by rw [List.length_drop]; omega)

theorem firstMatch_append {w s : List α} {p : ℕ} (t : List α) (h : firstMatch w s = some p) :
    firstMatch w (s ++ t) = some p := by
  obtain ⟨hmatch, hle, hnone⟩ := firstMatch_eq_some.mp h
  have hend := add_length_le_of_prefix_drop hmatch hle
  refine firstMatch_eq_some.mpr ⟨?_, ?_, fun q hq hq' => ?_⟩
  · rw [List.drop_append_of_le_length hle]
    exact hmatch.trans (List.prefix_append _ _)
  · rw [List.length_append]
    omega
  · exact hnone q hq (prefix_drop_of_append hq' (by omega))

/-- **The matches of `w`.** -/
def Matcher.literal (w : List α) : Matcher α where
  firstMatch := fun s => (Connio.Lib.firstMatch w s).map fun p => (p, w.length)
  le := by
    intro s p l h
    obtain ⟨p', hp', heq⟩ := Option.map_eq_some_iff.mp h
    cases heq
    obtain ⟨hmatch, hle, _⟩ := firstMatch_eq_some.mp hp'
    exact add_length_le_of_prefix_drop hmatch hle
  extend := by
    intro s p l t h
    obtain ⟨p', hp', heq⟩ := Option.map_eq_some_iff.mp h
    cases heq
    rw [firstMatch_append t hp']
    rfl
  drop := by
    intro s p l k h hk
    obtain ⟨p', hp', heq⟩ := Option.map_eq_some_iff.mp h
    cases heq
    obtain ⟨hmatch, hle, hnone⟩ := firstMatch_eq_some.mp hp'
    have hdrop : Connio.Lib.firstMatch w (s.drop k) = some (p - k) := by
      refine firstMatch_eq_some.mpr ⟨?_, ?_, fun q hq => ?_⟩
      · rw [List.drop_drop, Nat.add_sub_cancel' hk]
        exact hmatch
      · rw [List.length_drop]
        omega
      · rw [List.drop_drop]
        exact hnone (k + q) (by omega)
    rw [hdrop]
    rfl
  drop_none := by
    intro s k h
    have hnone := Option.map_eq_none_iff.mp h
    refine Option.map_eq_none_iff.mpr (firstMatch_eq_none.mpr fun p hp => ?_)
    rw [List.drop_drop]
    by_cases hk : k + p ≤ s.length
    · exact firstMatch_eq_none.mp hnone (k + p) hk
    · have hempty : s.drop (k + p) = s.drop s.length := by
        rw [List.drop_length, List.drop_eq_nil_of_le (by omega)]
      rw [hempty]
      exact firstMatch_eq_none.mp hnone s.length (Nat.le_refl _)

/-- **A word that is not in `s` begins no earlier than its length allows.** -/
theorem noneBefore_literal {w s : List α} (hw : w ≠ []) (h : firstMatch w s = none) :
    (Matcher.literal w).NoneBefore s (s.length - (w.length - 1)) := by
  intro t p l hm
  obtain ⟨p', hp', heq⟩ := Option.map_eq_some_iff.mp hm
  cases heq
  obtain ⟨hmatch, _, _⟩ := firstMatch_eq_some.mp hp'
  have hpos := List.length_pos_iff.mpr hw
  by_contra hlt
  exact firstMatch_eq_none.mp h p (by omega) (prefix_drop_of_append hmatch (by omega))

end Connio.Lib
