import Connio.Lib.FirstMatch

/-!
# The first of several words in a stream

A finite set of words, searched for together.  The words are prefix-free, and a word that occurs inside another one
ends it; so what a search finds in a part of the stream is what it finds in the whole.

* `WordSet` — the words with these properties;
* `WordSet.firstWord` — where the first word begins, and its length;
* `WordSet.matcher` — **PROVED**: this is a `Matcher`;
* `WordSet.noneBefore` — how much of a stream without a word is certain to begin none.
-/

namespace Connio.Lib

variable {α : Type}

/-- Words of which none is a prefix of another, and none occurs inside another but at its end. -/
structure WordSet (α : Type) where
  words : List (List α)
  nonempty : ∀ w ∈ words, w ≠ []
  prefixFree : ∀ v ∈ words, ∀ w ∈ words, v <+: w → v = w
  endsAt : ∀ v ∈ words, ∀ w ∈ words, ∀ q < w.length, 0 < q → v <+: w.drop q → w.length ≤ q + v.length

namespace WordSet

variable [DecidableEq α] (ws : WordSet α)

/-- The word at the head of `s`. -/
def wordAt (s : List α) : Option (List α) := ws.words.find? fun w => decide (w <+: s)

/-- **Where the first word begins, and its length.** -/
def firstWord : List α → Option (ℕ × ℕ)
  | [] => none
  | x :: s =>
    match ws.wordAt (x :: s) with
    | some w => some (0, w.length)
    | none => (firstWord s).map fun r => (r.1 + 1, r.2)

variable {ws} {s : List α} {w : List α} {p l : ℕ}

theorem wordAt_some (h : ws.wordAt s = some w) : w ∈ ws.words ∧ w <+: s :=
  ⟨List.mem_of_find?_eq_some h, of_decide_eq_true (List.find?_some (p := fun w => decide (w <+: s)) h)⟩

theorem wordAt_eq_none : ws.wordAt s = none ↔ ∀ w ∈ ws.words, ¬ w <+: s := by
  simp [wordAt, List.find?_eq_none]

/-- **At most one word stands at the head.** -/
theorem wordAt_of_prefix (hw : w ∈ ws.words) (h : w <+: s) : ws.wordAt s = some w := by
  cases hat : ws.wordAt s with
  | none => exact absurd h (wordAt_eq_none.mp hat w hw)
  | some v =>
    obtain ⟨hv, hstarts⟩ := wordAt_some hat
    rcases List.prefix_or_prefix_of_prefix hstarts h with hle | hle
    · rw [ws.prefixFree v hv w hw hle]
    · rw [ws.prefixFree w hw v hv hle]

theorem firstWord_cons_of_some {x : α} (h : ws.wordAt (x :: s) = some w) :
    ws.firstWord (x :: s) = some (0, w.length) := by
  simp only [firstWord, h]

theorem firstWord_cons_of_none {x : α} (h : ws.wordAt (x :: s) = none) :
    ws.firstWord (x :: s) = (ws.firstWord s).map fun r => (r.1 + 1, r.2) := by
  simp only [firstWord, h]

/-- What is found is a word. -/
theorem firstWord_some : ∀ {s : List α} {p l : ℕ}, ws.firstWord s = some (p, l) →
    ∃ w ∈ ws.words, w.length = l ∧ w <+: s.drop p ∧ p ≤ s.length := by
  intro s
  induction s with
  | nil =>
    intro p l h
    cases h
  | cons x s ih =>
    intro p l h
    cases hat : ws.wordAt (x :: s) with
    | some w =>
      rw [firstWord_cons_of_some hat] at h
      cases h
      obtain ⟨hw, hstarts⟩ := wordAt_some hat
      exact ⟨w, hw, rfl, hstarts, Nat.zero_le _⟩
    | none =>
      rw [firstWord_cons_of_none hat] at h
      obtain ⟨⟨p', l'⟩, hfirst, heq⟩ := Option.map_eq_some_iff.mp h
      cases heq
      obtain ⟨w, hw, hlength, hstarts, hle⟩ := ih hfirst
      exact ⟨w, hw, hlength, hstarts, Nat.succ_le_succ hle⟩

/-- Where nothing is found no word begins. -/
theorem firstWord_none : ∀ {s : List α}, ws.firstWord s = none → ∀ p, ∀ w ∈ ws.words, ¬ w <+: s.drop p := by
  intro s
  induction s with
  | nil =>
    intro _ p w hw hstarts
    rw [List.drop_nil] at hstarts
    exact ws.nonempty w hw (List.prefix_nil.mp hstarts)
  | cons x s ih =>
    intro h p w hw
    cases hat : ws.wordAt (x :: s) with
    | some w =>
      rw [firstWord_cons_of_some hat] at h
      cases h
    | none =>
      rw [firstWord_cons_of_none hat] at h
      cases p with
      | zero => exact wordAt_eq_none.mp hat w hw
      | succ p => exact ih (Option.map_eq_none_iff.mp h) p w hw

theorem firstWord_le (h : ws.firstWord s = some (p, l)) : p + l ≤ s.length := by
  obtain ⟨w, _, rfl, hstarts, hle⟩ := firstWord_some h
  exact add_length_le_of_prefix_drop hstarts hle

/-- A word that reaches beyond `s` does not begin before one that lies in `s`. -/
theorem wordAt_append_none {x : α} (t : List α) (hat : ws.wordAt (x :: s) = none)
    (h : ws.firstWord s = some (p, l)) : ws.wordAt (x :: s ++ t) = none := by
  refine wordAt_eq_none.mpr fun v hv hstarts => ?_
  have hlong : (x :: s).length < v.length := by
    by_contra hle
    exact wordAt_eq_none.mp hat v hv
      (List.prefix_of_prefix_length_le hstarts (List.prefix_append _ _) (Nat.le_of_not_lt hle))
  have hle := firstWord_le h
  rw [List.length_cons] at hlong
  obtain ⟨w, hw, rfl, hinner, _⟩ := firstWord_some h
  have hwhole : w <+: (x :: s ++ t).drop (p + 1) := by
    rw [List.cons_append, List.drop_succ_cons, List.drop_append_of_le_length (by omega)]
    exact hinner.trans (List.prefix_append _ _)
  obtain ⟨rest, hrest⟩ := hstarts
  rw [← hrest] at hwhole
  have hinside := prefix_drop_of_append hwhole (by omega)
  have hends := ws.endsAt w hw v hv (p + 1) (by omega) (Nat.succ_pos p) hinside
  omega

theorem firstWord_append (t : List α) : ∀ {s : List α} {p l : ℕ}, ws.firstWord s = some (p, l) →
    ws.firstWord (s ++ t) = some (p, l) := by
  intro s
  induction s with
  | nil =>
    intro p l h
    cases h
  | cons x s ih =>
    intro p l h
    cases hat : ws.wordAt (x :: s) with
    | some w =>
      rw [firstWord_cons_of_some hat] at h
      obtain ⟨hw, hstarts⟩ := wordAt_some hat
      have hat' : ws.wordAt (x :: (s ++ t)) = some w :=
        wordAt_of_prefix hw (hstarts.trans (List.prefix_append (x :: s) t))
      rw [List.cons_append, firstWord_cons_of_some hat', h]
    | none =>
      rw [firstWord_cons_of_none hat] at h
      obtain ⟨⟨p', l'⟩, hfirst, heq⟩ := Option.map_eq_some_iff.mp h
      have hat' : ws.wordAt (x :: (s ++ t)) = none := wordAt_append_none t hat hfirst
      rw [List.cons_append, firstWord_cons_of_none hat', ih hfirst]
      exact congrArg some heq

theorem firstWord_drop : ∀ {s : List α} {p l k : ℕ}, ws.firstWord s = some (p, l) → k ≤ p →
    ws.firstWord (s.drop k) = some (p - k, l) := by
  intro s
  induction s with
  | nil =>
    intro p l k h
    cases h
  | cons x s ih =>
    intro p l k h hk
    cases k with
    | zero => exact h
    | succ k =>
      cases hat : ws.wordAt (x :: s) with
      | some w =>
        rw [firstWord_cons_of_some hat] at h
        cases h
        exact absurd hk (Nat.not_succ_le_zero k)
      | none =>
        rw [firstWord_cons_of_none hat] at h
        obtain ⟨⟨p', l'⟩, hfirst, heq⟩ := Option.map_eq_some_iff.mp h
        cases heq
        rw [List.drop_succ_cons, ih hfirst (Nat.le_of_succ_le_succ hk), Nat.add_sub_add_right]

theorem firstWord_drop_none {k : ℕ} (h : ws.firstWord s = none) : ws.firstWord (s.drop k) = none := by
  cases hdrop : ws.firstWord (s.drop k) with
  | none => rfl
  | some r =>
    obtain ⟨w, hw, _, hstarts, _⟩ := firstWord_some hdrop
    rw [List.drop_drop] at hstarts
    exact absurd hstarts (firstWord_none h _ w hw)

variable (ws) in
/-- **The words as a search (proved).** -/
def matcher : Matcher α where
  firstMatch := ws.firstWord
  le := firstWord_le
  extend := fun t h => firstWord_append t h
  drop := firstWord_drop
  drop_none := firstWord_drop_none

/-- **A stream without a word of at most `n` items begins none before its last `n - 1` (proved).** -/
theorem noneBefore {n : ℕ} (hn : ∀ w ∈ ws.words, w.length ≤ n) (h : ws.firstWord s = none) :
    ws.matcher.NoneBefore s (s.length - (n - 1)) := by
  intro t p l hm
  obtain ⟨w, hw, _, hstarts, _⟩ := firstWord_some hm
  have hlength := hn w hw
  have hpos := List.length_pos_iff.mpr (ws.nonempty w hw)
  by_contra hlt
  exact firstWord_none h p w hw (prefix_drop_of_append hstarts (by omega))

end WordSet

end Connio.Lib
