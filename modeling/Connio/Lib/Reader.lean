import Mathlib.Algebra.Order.Ring.Nat
import Mathlib.Data.Nat.Digits.Lemmas

/-!
# Readers

A reader takes a value from the front of a text and leaves the rest.  It reads a format back when it takes, from a text
of this format, the value that was written.

* `Reader`, `Reader.Reads` — a reader, and that it takes a value from a text, if what is behind it may stand there;
* `Reads.pure`, `Reads.bind`, `Reads.peekAny` — **PROVED**: the rules, for readers that are put together with `do`;
* `expect`, `symbol`, `takeText`, `untilStop`, `oneOf`, `numeral`, `integer`, `times` — the readers of a constant, a
  symbol, a number of symbols, a line, an enumeration, a numeral, an integer and a repetition, each with its rule;
* `readText`, `readText_flatMap` — **PROVED**: a text that is one value after the other.
-/

namespace Connio.Lib

/-- **A reader:** the value that it takes from the front of a text, and the rest. -/
abbrev Reader (σ α : Type) := StateT (List σ) Option α

namespace Reader

variable {σ α β : Type}

/-- Whatever is behind. -/
def Anything : List σ → Prop := fun _ => True

/-- **The reader takes the value from the text,** when what is behind may `follow`. -/
def Reads (r : Reader σ α) (follow : List σ → Prop) (text : List σ) (a : α) : Prop :=
  ∀ rest, follow rest → r.run (text ++ rest) = some (a, rest)

section Rules

variable {r : Reader σ α} {k : α → Reader σ β} {follow follow' : List σ → Prop} {text text' : List σ} {a : α} {b : β}

theorem Reads.mono (h : r.Reads follow text a) (hfollow : ∀ rest, follow' rest → follow rest) :
    r.Reads follow' text a :=
  fun rest hrest => h rest (hfollow rest hrest)

/-- A reader that does not look behind what it takes. -/
theorem Reads.anywhere (h : r.Reads Anything text a) : r.Reads follow text a := h.mono fun _ _ => trivial

theorem Reads.pure (follow : List σ → Prop) (a : α) : (Pure.pure a : Reader σ α).Reads follow [] a :=
  fun _ _ => rfl

/-- One reader after another: what the second one reads may stand behind what the first one reads. -/
theorem Reads.bind (h : r.Reads follow' text a) (hk : (k a).Reads follow text' b)
    (hfollow : ∀ rest, follow rest → follow' (text' ++ rest)) : (r >>= k).Reads follow (text ++ text') b := by
  intro rest hrest
  have hfirst := h (text' ++ rest) (hfollow rest hrest)
  rw [List.append_assoc, StateT.run_bind, hfirst]
  exact hk rest hrest

/-- One reader after another that does not look behind what it takes. -/
theorem Reads.andThen (h : r.Reads Anything text a) (hk : (k a).Reads follow text' b) :
    (r >>= k).Reads follow (text ++ text') b :=
  h.bind hk fun _ _ => trivial

/-- A last reader whose value is changed. -/
theorem Reads.map {f : α → β} (h : r.Reads follow text a) : (f <$> r).Reads follow text (f a) := by
  intro rest hrest
  rw [StateT.run_map, h rest hrest]
  rfl

/-- A last reader, and what is returned behind it. -/
theorem Reads.andReturn (h : r.Reads follow text a) (hk : k a = Pure.pure b) : (r >>= k).Reads follow text b := by
  intro rest hrest
  rw [StateT.run_bind, h rest hrest]
  show (k a).run rest = some (b, rest)
  rw [hk]
  rfl

end Rules

/-! ### What is next -/

/-- The next symbol, which is left where it is. -/
def peek : Reader σ (Option σ) := fun input => some (input.head?, input)

section Next

variable {k : Option σ → Reader σ β} {follow : List σ → Prop} {text : List σ} {b : β}

/-- A reader that goes by what is next. -/
theorem Reads.peekAny {p : Option σ → Prop} (hnext : ∀ rest, follow rest → p (text ++ rest).head?)
    (hk : ∀ c, p c → (k c).Reads follow text b) : (peek >>= k).Reads follow text b :=
  fun rest hrest => hk _ (hnext rest hrest) rest hrest

/-- A reader that goes by the next symbol, when this is known. -/
theorem Reads.peek {c : Option σ} (hnext : ∀ rest, follow rest → (text ++ rest).head? = c)
    (hk : (k c).Reads follow text b) : (Reader.peek >>= k).Reads follow text b :=
  Reads.peekAny (p := (· = c)) hnext fun _ hc => hc ▸ hk

end Next

/-! ### Constants and lines -/

section Constants

variable [DecidableEq σ]

/-- A text that must be there. -/
def expect (text : List σ) : Reader σ Unit := fun input =>
  if text <+: input then some ((), input.drop text.length) else none

theorem reads_expect (text : List σ) : (expect text).Reads Anything text () := by
  intro rest _
  show (if text <+: text ++ rest then some ((), (text ++ rest).drop text.length) else none) = _
  rw [if_pos (List.prefix_append text rest), List.drop_left]

/-- A symbol that has a value. -/
def symbol (value : σ → Option α) : Reader σ α := fun input => do
  let c ← input.head?
  let a ← value c
  return (a, input.tail)

omit [DecidableEq σ] in
theorem reads_symbol {value : σ → Option α} {c : σ} {a : α} (h : value c = some a) :
    (symbol value).Reads Anything [c] a := by
  intro rest _
  show (value c).bind (fun a => some (a, rest)) = some (a, rest)
  rw [h, Option.bind_some]

/-- That many symbols. -/
def takeText (n : ℕ) : Reader σ (List σ) := fun input =>
  if n ≤ input.length then some (input.take n, input.drop n) else none

omit [DecidableEq σ] in
theorem reads_takeText {text : List σ} {n : ℕ} (h : text.length = n) : (takeText n).Reads Anything text text := by
  intro rest _
  rw [← h]
  show (if text.length ≤ (text ++ rest).length then _ else _) = _
  rw [if_pos (by rw [List.length_append]; omega), List.take_left, List.drop_left]

/-- The symbols before the first `stop`, which is taken too. -/
def untilStop (stop : σ) : Reader σ (List σ) := fun input =>
  if stop ∈ input then some (input.takeWhile (· ≠ stop), (input.dropWhile (· ≠ stop)).tail) else none

theorem reads_untilStop {stop : σ} {text : List σ} (h : stop ∉ text) :
    (untilStop stop).Reads Anything (text ++ [stop]) text := by
  intro rest _
  have hall : ∀ c ∈ text, decide (c ≠ stop) = true := fun c hc => by
    rw [decide_eq_true_iff]
    rintro rfl
    exact h hc
  show (if stop ∈ text ++ [stop] ++ rest then _ else _) = _
  rw [if_pos (by simp), List.append_assoc, List.takeWhile_append_of_pos hall, List.dropWhile_append_of_pos hall,
    List.singleton_append, List.takeWhile_cons_of_neg (by simp), List.dropWhile_cons_of_neg (by simp), List.append_nil,
    List.tail_cons]

/-! ### Enumerations -/

/-- No text is the front of another one. -/
def PrefixFree (choices : List (List σ × α)) : Prop := choices.Pairwise fun p q => ¬ p.1 <+: q.1 ∧ ¬ q.1 <+: p.1

instance (choices : List (List σ × α)) : Decidable (PrefixFree choices) :=
  inferInstanceAs (Decidable (List.Pairwise _ choices))

/-- The first of the texts that is there. -/
def oneOf (choices : List (List σ × α)) : Reader σ α := fun input =>
  (choices.find? fun p => p.1 <+: input).map fun p => (p.2, input.drop p.1.length)

/-- Of texts of which none is the front of another one only one is there. -/
theorem reads_oneOf {choices : List (List σ × α)} {text : List σ} {a : α} (hfree : PrefixFree choices)
    (hmem : (text, a) ∈ choices) : (oneOf choices).Reads Anything text a := by
  intro rest _
  have hfind : choices.find? (fun p => p.1 <+: text ++ rest) = some (text, a) := by
    induction choices with
    | nil => cases hmem
    | cons p choices ih =>
      obtain ⟨hp, hrest⟩ := List.pairwise_cons.mp hfree
      rcases List.mem_cons.mp hmem with rfl | hmem
      · exact List.find?_cons_of_pos (decide_eq_true (List.prefix_append text rest))
      · have hnot : ¬ p.1 <+: text ++ rest := fun hpre => by
          obtain ⟨hleft, hright⟩ := hp _ hmem
          rcases List.prefix_or_prefix_of_prefix hpre (List.prefix_append text rest) with hfront | hfront
          · exact hleft hfront
          · exact hright hfront
        rw [List.find?_cons_of_neg (by rw [decide_eq_true_iff]; exact hnot)]
        exact ih hrest hmem
  show (choices.find? (fun p => p.1 <+: text ++ rest)).map _ = _
  rw [hfind, Option.map_some, List.drop_left]

end Constants

/-! ### Numerals -/

/-- **A numeral of at least `width` digits.** -/
def numeralText (base : ℕ) (digit : ℕ → σ) (width n : ℕ) : List σ :=
  ((Nat.digits base n).reverse.map digit).leftpad width (digit 0)

/-- The number of the digits that are next. -/
def numeral (base : ℕ) (value : σ → Option ℕ) : Reader σ ℕ := fun input =>
  let digits := input.takeWhile fun c => (value c).isSome
  some (Nat.ofDigits base (digits.reverse.filterMap value), input.drop digits.length)

/-- What is behind does not begin with a digit. -/
def NoDigit (value : σ → Option ℕ) (rest : List σ) : Prop := ∀ c ∈ rest.head?, value c = none

/-- Each digit has its value. -/
def Digits (base : ℕ) (digit : ℕ → σ) (value : σ → Option ℕ) : Prop :=
  1 < base ∧ ∀ d < base, value (digit d) = some d

section Numerals

variable {base : ℕ} {digit : ℕ → σ} {value : σ → Option ℕ}

/-- A text that begins with another symbol. -/
theorem noDigit_append {text : List σ} (h : text.head?.map value = some none) (rest : List σ) :
    NoDigit value (text ++ rest) := by
  cases text with
  | nil => cases h
  | cons c text =>
    intro d hd
    obtain rfl : c = d := Option.some.inj hd
    exact Option.some.inj h

/-- The symbols of a numeral are digits. -/
theorem mem_numeralText (h : Digits base digit value) {width n : ℕ} {c : σ} (hc : c ∈ numeralText base digit width n) :
    ∃ d < base, digit d = c := by
  rcases List.mem_append.mp hc with hc | hc
  · obtain ⟨_, rfl⟩ := List.mem_replicate.mp hc
    exact ⟨0, by have := h.1; omega, rfl⟩
  · obtain ⟨d, hd, rfl⟩ := List.mem_map.mp hc
    exact ⟨d, Nat.digits_lt_base h.1 (List.mem_reverse.mp hd), rfl⟩

/-- The digits of a number, and some zeros in front. -/
theorem numeralText_values (h : Digits base digit value) (width n : ℕ) :
    ∃ k, (numeralText base digit width n).reverse.filterMap value = Nat.digits base n ++ List.replicate k 0 := by
  have hdigits : ∀ l : List ℕ, (∀ d ∈ l, d < base) → (l.map digit).filterMap value = l := by
    intro l hl
    induction l with
    | nil => rfl
    | cons d l ih =>
      have hd := h.2 d (hl d List.mem_cons_self)
      rw [List.map_cons, List.filterMap_cons_some hd, ih fun e he => hl e (List.mem_cons_of_mem d he)]
  refine ⟨width - ((Nat.digits base n).reverse.map digit).length, ?_⟩
  have hzeros : ∀ k, List.replicate k (digit 0) = (List.replicate k 0).map digit := fun k => List.map_replicate.symm
  rw [numeralText, List.leftpad, List.reverse_append, ← List.map_reverse, List.reverse_reverse, List.reverse_replicate,
    hzeros, List.filterMap_append, hdigits _ fun d hd => Nat.digits_lt_base h.1 hd, hdigits]
  intro d hd
  obtain ⟨_, rfl⟩ := List.mem_replicate.mp hd
  have := h.1
  omega

/-- **A numeral is read back (proved),** however many zeros it begins with. -/
theorem reads_numeral (h : Digits base digit value) (width n : ℕ) :
    (numeral base value).Reads (NoDigit value) (numeralText base digit width n) n := by
  intro rest hrest
  have hall : ∀ c ∈ numeralText base digit width n, (value c).isSome = true := fun c hc => by
    obtain ⟨d, hd, rfl⟩ := mem_numeralText h hc
    rw [h.2 d hd]
    rfl
  have hnone : rest.takeWhile (fun c => (value c).isSome) = [] := by
    cases rest with
    | nil => rfl
    | cons c rest =>
      have hc : value c = none := hrest c rfl
      exact List.takeWhile_cons_of_neg (by rw [hc]; exact Bool.false_ne_true)
  obtain ⟨k, hvalues⟩ := numeralText_values h width n
  show some (_, _) = _
  rw [List.takeWhile_append_of_pos hall, hnone, List.append_nil, List.drop_left, hvalues,
    Nat.ofDigits_append_replicate_zero, Nat.ofDigits_digits]

/-- A numeral of at least one digit has one. -/
theorem numeralText_ne_nil (base : ℕ) (digit : ℕ → σ) {width : ℕ} (hwidth : 0 < width) (n : ℕ) :
    numeralText base digit width n ≠ [] := by
  refine List.ne_nil_of_length_pos ?_
  rw [numeralText, List.length_leftpad]
  omega

/-- A numeral of a number that has not more digits has the width it is given. -/
theorem numeralText_length (hbase : 1 < base) (digit : ℕ → σ) {width n : ℕ} (hn : n < base ^ width) :
    (numeralText base digit width n).length = width := by
  have hle : (Nat.digits base n).length ≤ width := (Nat.digits_length_le_iff hbase n).mpr hn
  rw [numeralText, List.length_leftpad, List.length_map, List.length_reverse]
  omega

end Numerals

section Integers

variable [DecidableEq σ]

/-- An integer, with a sign in front when it is negative. -/
def integerText (base : ℕ) (digit : ℕ → σ) (minus : σ) (n : ℤ) : List σ :=
  if n < 0 then minus :: numeralText base digit 1 n.natAbs else numeralText base digit 1 n.natAbs

/-- The integer that is next. -/
def integer (base : ℕ) (value : σ → Option ℕ) (minus : σ) : Reader σ ℤ := do
  if (← peek) = some minus then
    expect [minus]
    return -(← numeral base value)
  else
    return (← numeral base value)

/-- **An integer is read back (proved).** -/
theorem reads_integer {base : ℕ} {digit : ℕ → σ} {value : σ → Option ℕ} {minus : σ} (h : Digits base digit value)
    (hminus : value minus = none) (n : ℤ) :
    (integer base value minus).Reads (NoDigit value) (integerText base digit minus n) n := by
  have hnumeral := reads_numeral h 1 n.natAbs
  by_cases hneg : n < 0
  · rw [integerText, if_pos hneg]
    refine Reads.peek (c := some minus) (fun _ _ => rfl) ?_
    rw [if_pos rfl]
    refine (reads_expect [minus]).andThen ?_
    have hvalue : -(n.natAbs : ℤ) = n := by omega
    have hmap := hnumeral.map (f := fun m : ℕ => -(m : ℤ))
    rw [hvalue] at hmap
    exact hmap
  · rw [integerText, if_neg hneg]
    obtain ⟨c, text, htext⟩ := List.exists_cons_of_ne_nil (numeralText_ne_nil base digit Nat.one_pos n.natAbs)
    have hc : c ≠ minus := fun heq => by
      obtain ⟨d, hd, hdigit⟩ := mem_numeralText (c := c) h (by rw [htext]; exact List.mem_cons_self)
      rw [← heq, ← hdigit, h.2 d hd] at hminus
      cases hminus
    refine Reads.peek (c := some c) (fun _ _ => by rw [htext]; rfl) ?_
    rw [if_neg fun heq => hc (Option.some.inj heq)]
    have hvalue : (n.natAbs : ℤ) = n := by omega
    have hmap := hnumeral.map (f := fun m : ℕ => (m : ℤ))
    rw [hvalue] at hmap
    exact hmap

end Integers

/-! ### Repetition -/

/-- That many values, one after the other. -/
def times (r : Reader σ α) : ℕ → Reader σ (List α)
  | 0 => return []
  | n + 1 => do
    let a ← r
    return a :: (← times r n)

theorem reads_times {r : Reader σ α} {text : β → List σ} {value : β → α} (h : ∀ b, r.Reads Anything (text b) (value b))
    (items : List β) : (times r items.length).Reads Anything (items.flatMap text) (items.map value) := by
  induction items with
  | nil => exact Reads.pure _ []
  | cons b items ih => exact (h b).andThen (ih.map (f := fun l => value b :: l))

/-! ### A whole text -/

/-- One value after the other, up to the end of the text. -/
def readAll (r : Reader σ α) : ℕ → Reader σ (List α)
  | 0 => return []
  | fuel + 1 => do
    if (← peek).isNone then
      return []
    else
      let a ← r
      return a :: (← readAll r fuel)

/-- The values of a text; `none` when it does not end with one. -/
def readText (r : Reader σ α) (input : List σ) : Option (List α) :=
  ((readAll r input.length).run input).bind fun p => if p.2 = [] then some p.1 else none

section Texts

variable {r : Reader σ α} {follow : List σ → Prop} {text : β → List σ} {value : β → α}

/-- What is behind an item: the next one, or the end. -/
theorem follow_flatMap {items : List β} (hend : follow []) (hnext : ∀ b ∈ items, ∀ rest, follow (text b ++ rest)) :
    follow (items.flatMap text) := by
  cases items with
  | nil => exact hend
  | cons b items => exact hnext b List.mem_cons_self _

theorem reads_readAll (hend : follow []) (items : List β) : ∀ fuel : ℕ, items.length ≤ fuel →
    (∀ b ∈ items, r.Reads follow (text b) (value b)) → (∀ b ∈ items, text b ≠ []) →
    (∀ b ∈ items, ∀ rest, follow (text b ++ rest)) →
      (readAll r fuel).Reads (· = []) (items.flatMap text) (items.map value) := by
  induction items with
  | nil =>
    intro fuel _ _ _ _
    cases fuel with
    | zero => exact Reads.pure _ []
    | succ fuel =>
      refine Reads.peek (c := none) (fun rest hrest => ?_) ?_
      · rw [hrest]
        rfl
      · exact Reads.pure _ []
  | cons b items ih =>
    intro fuel hfuel hitem hne hnext
    obtain ⟨fuel, rfl⟩ : ∃ k, fuel = k + 1 := ⟨fuel - 1, by rw [List.length_cons] at hfuel; omega⟩
    have hrest := ih fuel (Nat.le_of_succ_le_succ hfuel) (fun c hc => hitem c (List.mem_cons_of_mem b hc))
      (fun c hc => hne c (List.mem_cons_of_mem b hc)) fun c hc => hnext c (List.mem_cons_of_mem b hc)
    have hfirst := hitem b List.mem_cons_self
    obtain ⟨c, tail, htail⟩ := List.exists_cons_of_ne_nil (hne b List.mem_cons_self)
    rw [List.flatMap_cons, List.map_cons]
    refine Reads.peek (c := some c) (fun _ _ => by rw [htail]; rfl) ?_
    rw [if_neg (by exact Bool.false_ne_true)]
    refine hfirst.bind (hrest.map (f := fun l => value b :: l)) fun tail htail => ?_
    rw [htail, List.append_nil]
    exact follow_flatMap hend fun c hc => hnext c (List.mem_cons_of_mem b hc)

/-- **A text that is one item after the other is read back (proved),** when the items are read back, none is empty, and
each may stand behind another one. -/
theorem readText_flatMap {items : List β} (hitem : ∀ b ∈ items, r.Reads follow (text b) (value b))
    (hne : ∀ b ∈ items, text b ≠ []) (hend : follow []) (hnext : ∀ b ∈ items, ∀ rest, follow (text b ++ rest)) :
    readText r (items.flatMap text) = some (items.map value) := by
  have hlength : ∀ l : List β, (∀ b ∈ l, text b ≠ []) → l.length ≤ (l.flatMap text).length := by
    intro l
    induction l with
    | nil => exact fun _ => Nat.le_refl 0
    | cons b l ih =>
      intro hl
      have hpos := List.length_pos_iff.mpr (hl b List.mem_cons_self)
      have hle := ih fun c hc => hl c (List.mem_cons_of_mem b hc)
      rw [List.flatMap_cons, List.length_append, List.length_cons]
      omega
  have hread := reads_readAll hend items _ (hlength items hne) hitem hne hnext [] rfl
  rw [List.append_nil] at hread
  rw [readText, hread]
  show (if ([] : List σ) = [] then some (items.map value) else none) = _
  rw [if_pos rfl]

end Texts

end Reader

end Connio.Lib
