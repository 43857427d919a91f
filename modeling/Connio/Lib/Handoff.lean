import Mathlib.Algebra.GroupWithZero.Nat
import Mathlib.Data.List.Basic

/-!
# Handing a buffer over piece by piece

A sender holds a list of items and offers pieces of it to a receiver, which accepts a prefix of each
offer.  `Offer` records where a piece starts, its length and how much of it is accepted.

* `taken`, `handed` — how many items, and which ones, the receiver has accepted;
* `InOrder` — each offer starts where the accepted items end;
* `InOrder.handed_eq`, `InOrder.prefix` — what is accepted in order is a prefix of the list at all times;
* `inOrder_append` — one run of offers after another.
-/

namespace Connio.Lib

variable {α : Type}

/-- One offer: a piece of the list, and the number of its items that are accepted. -/
structure Offer where
  start : ℕ
  bytes : ℕ
  accepted : ℕ
  deriving DecidableEq, Repr

/-- The number of items accepted. -/
def taken (l : List Offer) : ℕ := (l.map Offer.accepted).sum

/-- The items accepted, in the order of the offers. -/
def handed (content : List α) (l : List Offer) : List α :=
  l.flatMap fun o => (content.drop o.start).take o.accepted

@[simp] theorem taken_nil : taken [] = 0 := rfl

@[simp] theorem taken_cons (o : Offer) (l : List Offer) : taken (o :: l) = o.accepted + taken l := by
  simp [taken]

@[simp] theorem taken_append (l l' : List Offer) : taken (l ++ l') = taken l + taken l' := by
  simp [taken]

/-- **Each offer starts where the accepted items end,** and stays inside a list of `total` items. -/
def InOrder (total : ℕ) : ℕ → List Offer → Prop
  | _, [] => True
  | pos, o :: l => o.start = pos ∧ o.accepted ≤ o.bytes ∧ pos + o.bytes ≤ total ∧
      InOrder total (pos + o.accepted) l

theorem inOrder_append {total : ℕ} {l l' : List Offer} : ∀ {pos : ℕ},
    InOrder total pos (l ++ l') ↔ InOrder total pos l ∧ InOrder total (pos + taken l) l' := by
  induction l with
  | nil =>
    intro pos
    simp [InOrder]
  | cons o l ih =>
    intro pos
    simp only [List.cons_append, InOrder, ih, taken_cons, Nat.add_assoc, and_assoc]

theorem InOrder.mono {total total' : ℕ} (hle : total ≤ total') {l : List Offer} : ∀ {pos : ℕ},
    InOrder total pos l → InOrder total' pos l := by
  induction l with
  | nil => exact fun _ => trivial
  | cons o l ih => exact fun h => ⟨h.1, h.2.1, Nat.le_trans h.2.2.1 hle, ih h.2.2.2⟩

/-- What is accepted in order follows what was accepted before. -/
theorem InOrder.handed_eq {content : List α} {l : List Offer} : ∀ {pos : ℕ},
    InOrder content.length pos l →
      content.take pos ++ handed content l = content.take (pos + taken l) := by
  induction l with
  | nil =>
    intro pos _
    simp [handed]
  | cons o l ih =>
    intro pos h
    obtain ⟨hstart, _, _, hrest⟩ := h
    have hpiece : content.take pos ++ (content.drop pos).take o.accepted =
        content.take (pos + o.accepted) := (List.take_add ..).symm
    have htail := ih hrest
    calc content.take pos ++ handed content (o :: l)
        = (content.take pos ++ (content.drop pos).take o.accepted) ++ handed content l := by
          simp [handed, hstart]
      _ = content.take (pos + taken (o :: l)) := by
          rw [hpiece, htail, taken_cons, Nat.add_assoc]

/-- **At all times the accepted items are a prefix of the list.** -/
theorem InOrder.prefix {content : List α} {l l' : List Offer} (h : InOrder content.length 0 (l ++ l')) :
    handed content l <+: content := by
  have heq := (inOrder_append.mp h).1.handed_eq
  rw [List.take_zero, List.nil_append, Nat.zero_add] at heq
  rw [heq]
  exact List.take_prefix _ _

end Connio.Lib
