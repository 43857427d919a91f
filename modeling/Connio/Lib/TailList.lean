import Mathlib.Data.List.Basic
import Mathlib.Data.List.Nodup
import Mathlib.Logic.Function.Basic

/-!
# Singly linked lists with a tail pointer

The queue of a C program whose members carry a `next` pointer, with a `tail` that is the address of the pointer to
write next: that of `head` in an empty list, else that of the `next` field of the last member.

* `Chained` — the members of a list are linked in order, and the last one has NULL;
* `TailList` with `push` and `pop` — pointer-level, as a C program writes them;
* `TailList.Holds` — the anchor and the pointers hold exactly the list `l`;
* `holds_push`, `holds_pop` — **PROVED**: the operations are `l ++ [x]` and the tail of `l`;
* `TailList.drain`, `drain_spec` — **PROVED**: popping until the list is empty gives the members in order.
-/

namespace Connio.Lib

variable {α : Type}

/-! ### Chains -/

/-- The members of a list are linked in order. -/
def Chained (next : α → Option α) : List α → Prop
  | [] => True
  | x :: xs => next x = xs.head? ∧ Chained next xs

variable {next next' : α → Option α} {l : List α} {x : α}

/-- What follows a member of a chain is one. -/
theorem Chained.mem_of_next (h : Chained next l) (hx : x ∈ l) {y : α} (hy : next x = some y) : y ∈ l := by
  induction l with
  | nil => exact absurd hx List.not_mem_nil
  | cons z l ih =>
    obtain ⟨hz, hl⟩ := h
    rcases List.mem_cons.mp hx with rfl | hx
    · exact List.mem_cons_of_mem _ (List.mem_of_mem_head? (hz.symm.trans hy))
    · exact List.mem_cons_of_mem _ (ih hl hx)

/-- A chain depends on the pointers of its members only. -/
theorem Chained.congr (h : Chained next l) (heq : ∀ x ∈ l, next' x = next x) : Chained next' l := by
  induction l with
  | nil => trivial
  | cons x xs ih =>
    obtain ⟨hx, hxs⟩ := h
    refine ⟨(heq x List.mem_cons_self).trans hx, ih hxs fun y hy => heq y (List.mem_cons_of_mem x hy)⟩

variable [DecidableEq α]

/-- A new member behind the last one. -/
theorem Chained.concat {t : α} (h : Chained next (l ++ [t])) (hnd : (l ++ [t]).Nodup) (hx : next x = none)
    (hxt : x ∉ l ++ [t]) : Chained (Function.update next t (some x)) (l ++ [t] ++ [x]) := by
  have hne : x ≠ t := fun heq => hxt (heq ▸ List.mem_append_right l List.mem_cons_self)
  induction l with
  | nil => exact ⟨Function.update_self .., (Function.update_of_ne hne ..).trans hx, trivial⟩
  | cons y ys ih =>
    obtain ⟨hy, hys⟩ := h
    obtain ⟨hyt, hnd'⟩ := List.nodup_cons.mp hnd
    have hyt' : y ≠ t := fun heq => hyt (heq ▸ List.mem_append_right ys List.mem_cons_self)
    refine ⟨?_, ih hys hnd' fun hmem => hxt (List.mem_cons_of_mem y hmem)⟩
    rw [Function.update_of_ne hyt', hy]
    cases ys <;> rfl

/-! ### The anchor -/

/-- The anchor of a list, and the pointers of its members. -/
structure TailList (α : Type) where
  head : Option α
  /-- `some x` is the address of the pointer in `x`, and `none` that of `head` -/
  tail : Option α
  next : α → Option α

namespace TailList

variable (d : TailList α)

/-- A list whose tail is the address of its head. -/
def empty (next : α → Option α) : TailList α where
  head := none
  tail := none
  next := next

/-- Write `x` where the tail points to. -/
def push (x : α) : TailList α :=
  match d.tail with
  | none =>
    { head := some x
      tail := some x
      next := Function.update d.next x none }
  | some t =>
    { head := d.head
      tail := some x
      next := Function.update (Function.update d.next x none) t (some x) }

/-- Take the first member; the tail is reset when there is no other one. -/
def pop : Option α × TailList α :=
  match d.head with
  | none => (none, d)
  | some x => (some x, { d with head := d.next x, tail := if (d.next x).isNone then none else d.tail })

/-- Take the members until there are none, at most `fuel` of them. -/
def drain : ℕ → TailList α → List α × TailList α
  | 0, d => ([], d)
  | fuel + 1, d =>
    match d.pop with
    | (none, d') => ([], d')
    | (some x, d') => (x :: (drain fuel d').1, (drain fuel d').2)

/-- **The anchor and the pointers hold exactly the list `l`.** -/
structure Holds (d : TailList α) (l : List α) : Prop where
  nodup : l.Nodup
  head : d.head = l.head?
  tail : d.tail = l.getLast?
  chained : Chained d.next l

omit [DecidableEq α] in
theorem holds_empty (next : α → Option α) : (empty next).Holds [] := ⟨List.nodup_nil, rfl, rfl, trivial⟩

variable {d}

/-- **A push is `l ++ [x]` (proved).** -/
theorem holds_push (h : d.Holds l) (hx : x ∉ l) : (d.push x).Holds (l ++ [x]) := by
  have hnd : (l ++ [x]).Nodup := by
    refine List.nodup_append.mpr ⟨h.nodup, List.nodup_singleton x, fun y hy z hz heq => hx ?_⟩
    rw [← List.mem_singleton.mp hz, ← heq]
    exact hy
  rcases List.eq_nil_or_concat' l with rfl | ⟨ys, t, rfl⟩
  · have htail : d.tail = none := h.tail
    unfold push
    rw [htail]
    exact ⟨hnd, rfl, rfl, Function.update_self .., trivial⟩
  · have htail : d.tail = some t := by
      rw [h.tail, List.getLast?_concat]
    have hold : ∀ y ∈ ys ++ [t], Function.update d.next x none y = d.next y := by
      rintro y hy
      have hyx : y ≠ x := fun heq => hx (heq ▸ hy)
      exact Function.update_of_ne hyx ..
    unfold push
    rw [htail]
    refine ⟨hnd, ?_, ?_, ?_⟩
    · rw [h.head]
      cases ys <;> rfl
    · exact List.getLast?_concat.symm
    · exact (h.chained.congr hold).concat h.nodup (Function.update_self ..) hx

omit [DecidableEq α] in
/-- **A pop takes the first member (proved).** -/
theorem holds_pop (h : d.Holds (x :: l)) : ∃ d', d.pop = (some x, d') ∧ d'.next = d.next ∧ d'.Holds l := by
  have hhead : d.head = some x := h.head
  obtain ⟨hnext, hchained⟩ := h.chained
  unfold pop
  rw [hhead]
  refine ⟨_, rfl, rfl, (List.nodup_cons.mp h.nodup).2, hnext, ?_, hchained⟩
  show (if (d.next x).isNone then none else d.tail) = l.getLast?
  rw [hnext]
  cases l with
  | nil => rfl
  | cons y ys =>
    rw [h.tail]
    exact List.getLast?_cons_cons

omit [DecidableEq α] in
theorem pop_nil (h : d.Holds []) : d.pop = (none, d) := by
  have hhead : d.head = none := h.head
  unfold pop
  rw [hhead]

omit [DecidableEq α] in
/-- **Popping until the list is empty (proved)** gives its members, and the tail is the address of the head again. -/
theorem drain_spec (l : List α) : ∀ {d : TailList α} {fuel : ℕ}, d.Holds l → l.length ≤ fuel →
    drain fuel d = (l, empty d.next) := by
  induction l with
  | nil =>
    intro d fuel h _
    have hempty : d = empty d.next := by
      obtain ⟨head, tail, next⟩ := d
      cases h.head
      cases h.tail
      rfl
    cases fuel with
    | zero => exact congrArg _ hempty
    | succ fuel =>
      unfold drain
      rw [pop_nil h]
      exact congrArg _ hempty
  | cons x xs ih =>
    intro d fuel h hfuel
    cases fuel with
    | zero => exact absurd hfuel (Nat.not_succ_le_zero _)
    | succ fuel =>
      obtain ⟨d', hpop, hnext, hd'⟩ := holds_pop h
      unfold drain
      simp only [hpop, ih hd' (Nat.le_of_succ_le_succ hfuel), hnext]

end TailList

end Connio.Lib
