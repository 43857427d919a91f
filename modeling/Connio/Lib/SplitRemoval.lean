import Connio.Lib.DoublyLinked

/-!
# Removal in two steps

A program may route the links of an intrusive list around a member first and clear the pointers of the member later; in
between the member still points into the list.

* `DList.unlink`, `DList.clear` — the two steps;
* `represents_unlink`, `represents_clear` — **PROVED**: the first step is the removal, the second one is not seen in
  the list;
* `Represents.next_eq` — the pointer of a member leads to the part behind it;
* `Represents.next_append`, `Represents.next_unlink` — the pointer of what is not in the list stays.
-/

namespace Connio.Lib

variable {α : Type} [DecidableEq α]

/-! ### Both ends of a list -/

theorem head_erase {l : List α} {x : α} (h : l.head? ≠ some x) : (l.erase x).head? = l.head? := by
  cases l with
  | nil => rfl
  | cons y l =>
    have hne : ¬ (y == x) = true := fun heq => h (congrArg some (beq_iff_eq.mp heq))
    rw [List.erase_cons_tail hne]
    rfl

theorem erase_concat {l : List α} {x y : α} (h : y ≠ x) : (l ++ [y]).erase x = l.erase x ++ [y] := by
  by_cases hx : x ∈ l
  · exact List.erase_append_left _ hx
  · have hy : x ∉ [y] := fun hmem => h (List.mem_singleton.mp hmem).symm
    rw [List.erase_append_right _ hx, List.erase_of_not_mem hy, List.erase_of_not_mem hx]

/-- A member is in one of two parts. -/
theorem erase_append_of_nodup {a b : List α} {x : α} (h : (a ++ b).Nodup) :
    (a ++ b).erase x = a.erase x ++ b.erase x := by
  by_cases hx : x ∈ a
  · have hb : x ∉ b := fun hmem => (List.nodup_append.mp h).2.2 x hx x hmem rfl
    rw [List.erase_append_left _ hx, List.erase_of_not_mem hb]
  · rw [List.erase_append_right _ hx, List.erase_of_not_mem hx]

/-! ### The two steps -/

namespace DList

/-- Route the links around `x`, which keeps its own pointers. -/
def unlink (d : DList α) (x : α) : DList α :=
  ({ d with count := d.count - 1 }.bypassNext x).bypassPrevious x

/-- Clear the pointers of `x`. -/
def clear (d : DList α) (x : α) : DList α :=
  { d with
    next := Function.update d.next x none
    previous := Function.update d.previous x none }

variable {d : DList α} {l a b : List α} {x y : α}

theorem clear_unlink (d : DList α) (x : α) : (d.unlink x).clear x = d.remove x := rfl

/-- The pointers of what is not in the list do not matter. -/
theorem represents_clear (hx : x ∉ l) : (d.clear x).Represents l ↔ d.Represents l := by
  have hne : ∀ y ∈ l, y ≠ x := by
    intro y hy heq
    exact hx (heq ▸ hy)
  constructor
  · intro h
    refine ⟨h.nodup, h.count_eq, h.head_eq, h.tail_eq, linked_congr (fun y hy => ?_) (fun y hy => ?_) h.linked⟩
    · exact (Function.update_of_ne (hne y hy) _ _).symm
    · exact (Function.update_of_ne (hne y hy) _ _).symm
  · intro h
    refine ⟨h.nodup, h.count_eq, h.head_eq, h.tail_eq, linked_congr (fun y hy => ?_) (fun y hy => ?_) h.linked⟩
    · exact Function.update_of_ne (hne y hy) _ _
    · exact Function.update_of_ne (hne y hy) _ _

/-- **Unlinking is `l.erase x` (proved).** -/
theorem represents_unlink (h : d.Represents l) (hx : x ∈ l) : (d.unlink x).Represents (l.erase x) := by
  rw [← represents_clear (List.Nodup.not_mem_erase h.nodup), clear_unlink]
  exact represents_remove h hx

namespace Represents

omit [DecidableEq α] in
/-- The pointer of a member leads to the part behind it. -/
theorem next_eq (h : d.Represents (a ++ x :: b)) : d.next x = b.head? := by
  have hnext := (linked_append.mp h.linked).2.2.1
  simpa using hnext

omit [DecidableEq α] in
theorem previous_eq (h : d.Represents (a ++ x :: b)) : d.previous x = a.getLast? := by
  have hprevious := (linked_append.mp h.linked).2.1
  simpa using hprevious

/-- Append changes the pointers of a member only. -/
theorem next_append (h : d.Represents l) (hy : y ∉ l) (hne : y ≠ x) : (d.append x).next y = d.next y := by
  unfold append
  cases htail : d.tail with
  | none => exact Function.update_of_ne hne _ _
  | some t =>
    have ht : y ≠ t := by
      intro heq
      rw [h.tail_eq] at htail
      exact hy (heq ▸ List.mem_of_getLast? htail)
    show Function.update (Function.update d.next x none) t (some x) y = d.next y
    rw [Function.update_of_ne ht, Function.update_of_ne hne]

/-- Unlinking changes the pointers of the members on both sides only. -/
theorem next_unlink (h : d.Represents l) (hx : x ∈ l) (hy : y ∉ l.erase x) : (d.unlink x).next y = d.next y := by
  obtain ⟨a, b, rfl⟩ := List.append_of_mem hx
  have hprevious := h.previous_eq
  have hnext : (d.unlink x).next = ({ d with count := d.count - 1 }.bypassNext x).next := by
    unfold unlink bypassPrevious
    split <;> rfl
  rw [hnext]
  unfold bypassNext
  cases hp : d.previous x with
  | none => rfl
  | some p =>
    rw [hprevious] at hp
    have hpa : p ∈ a := List.mem_of_getLast? hp
    have hpx : p ≠ x := fun heq => (List.nodup_append.mp h.nodup).2.2 p hpa x List.mem_cons_self heq
    have hyp : y ≠ p := by
      intro heq
      exact hy (heq ▸ (List.mem_erase_of_ne hpx).mpr (List.mem_append_left _ hpa))
    exact Function.update_of_ne hyp _ _

end Represents

end DList

end Connio.Lib
