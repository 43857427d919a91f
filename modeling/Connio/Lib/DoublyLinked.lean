import Mathlib.Data.List.Basic
import Mathlib.Data.List.Nodup
import Mathlib.Logic.Function.Basic

/-!
# Intrusive doubly linked lists

The list of a C program whose members carry their own `next` and `previous` pointers: the anchor holds
`head`, `tail` and `count`, and the two pointer fields of the members are a heap `α → Option α`.

* `DList` with `append`, `remove` and `search` — pointer-level, as a C program writes them;
* `Linked` — a segment of the heap holds the members of a list in order, with the boundary pointers
  made explicit; `linked_append` splits a segment anywhere;
* `DList.Represents` — the anchor and the heap hold exactly the list `l`;
* `represents_append`, `represents_remove` — **PROVED**: the pointer operations are `l ++ [x]` and
  `l.erase x`, removals from the middle included;
* `search_represents` — the pointer walk is the list walk `scanList`;
* `toList_represents` — the walk along `next` recovers `l`, so the representation is unique.
-/

namespace Connio.Lib

variable {α : Type}

/-! ### Linked segments -/

/-- The members of a list are linked in order; `p` precedes the first and `n` follows the last. -/
def Linked (next previous : α → Option α) : Option α → List α → Option α → Prop
  | _, [], _ => True
  | p, x :: xs, n =>
      previous x = p ∧ next x = xs.head?.or n ∧ Linked next previous (some x) xs n

variable {next previous next' previous' : α → Option α} {p n : Option α}

theorem linked_append {xs ys : List α} :
    ∀ {p : Option α}, Linked next previous p (xs ++ ys) n ↔
      Linked next previous p xs (ys.head?.or n) ∧
        Linked next previous (xs.getLast?.or p) ys n := by
  induction xs with
  | nil => intro p; simp [Linked]
  | cons x xs ih =>
    intro p
    have hlast : (x :: xs).getLast?.or p = xs.getLast?.or (some x) := by
      rw [List.getLast?_cons]
      cases xs.getLast? <;> rfl
    simp only [List.cons_append, Linked, ih, List.head?_append, Option.or_assoc, hlast]
    constructor
    · rintro ⟨h1, h2, h3, h4⟩
      exact ⟨⟨h1, h2, h3⟩, h4⟩
    · rintro ⟨⟨h1, h2, h3⟩, h4⟩
      exact ⟨h1, h2, h3, h4⟩

/-- A segment depends on the pointers of its members only. -/
theorem linked_congr {l : List α} :
    ∀ {p : Option α}, (∀ x ∈ l, next' x = next x) → (∀ x ∈ l, previous' x = previous x) →
      Linked next previous p l n → Linked next' previous' p l n := by
  induction l with
  | nil => intro p _ _ _; trivial
  | cons x xs ih =>
    intro p hn hp h
    obtain ⟨h1, h2, h3⟩ := h
    refine ⟨?_, ?_, ih (fun y hy => hn y (List.mem_cons_of_mem _ hy))
      (fun y hy => hp y (List.mem_cons_of_mem _ hy)) h3⟩
    · rw [hp x List.mem_cons_self, h1]
    · rw [hn x List.mem_cons_self, h2]

variable [DecidableEq α]

/-- Redirect the `next` pointer of the last member of a segment. -/
theorem linked_setNext {xs : List α} {t : α} {n' : Option α} (hnd : (xs ++ [t]).Nodup)
    (h : Linked next previous p (xs ++ [t]) n) :
    Linked (Function.update next t n') previous p (xs ++ [t]) n' := by
  rw [linked_append] at h ⊢
  obtain ⟨hxs, hprev, _, _⟩ := h
  have hne : ∀ x ∈ xs, x ≠ t := by
    rintro x hx rfl
    exact (List.nodup_append.mp hnd).2.2 _ hx _ List.mem_cons_self rfl
  refine ⟨?_, hprev, by simp, trivial⟩
  exact linked_congr (fun x hx => Function.update_of_ne (hne x hx) _ _) (fun _ _ => rfl) hxs

/-- Redirect the `previous` pointer of the first member of a segment. -/
theorem linked_setPrevious {xs : List α} {t : α} {p' : Option α} (hnd : (t :: xs).Nodup)
    (h : Linked next previous p (t :: xs) n) :
    Linked next (Function.update previous t p') p' (t :: xs) n := by
  obtain ⟨_, hnext, hxs⟩ := h
  have hne : ∀ x ∈ xs, x ≠ t := by
    rintro x hx rfl
    exact (List.nodup_cons.mp hnd).1 hx
  refine ⟨by simp, hnext, ?_⟩
  exact linked_congr (fun _ _ => rfl) (fun x hx => Function.update_of_ne (hne x hx) _ _) hxs

/-! ### The anchor -/

/-- The anchor of an intrusive list together with the pointer fields of its members. -/
structure DList (α : Type) where
  head : Option α
  tail : Option α
  count : ℕ
  next : α → Option α
  previous : α → Option α

namespace DList

/-- The list of a zeroed anchor. -/
def empty : DList α where
  head := none
  tail := none
  count := 0
  next := fun _ => none
  previous := fun _ => none

/-- Link `x` behind the tail. -/
def append (d : DList α) (x : α) : DList α :=
  match d.tail with
  | some t =>
    { head := d.head
      tail := some x
      count := d.count + 1
      next := Function.update (Function.update d.next x none) t (some x)
      previous := Function.update d.previous x (some t) }
  | none =>
    { head := some x
      tail := some x
      count := d.count + 1
      next := Function.update d.next x none
      previous := Function.update d.previous x none }

/-- Route the forward link around `x`. -/
def bypassNext (d : DList α) (x : α) : DList α :=
  match d.previous x with
  | some p => { d with next := Function.update d.next p (d.next x) }
  | none => { d with head := d.next x }

/-- Route the backward link around `x`. -/
def bypassPrevious (d : DList α) (x : α) : DList α :=
  match d.next x with
  | some n => { d with previous := Function.update d.previous n (d.previous x) }
  | none => { d with tail := d.previous x }

/-- Unlink `x`, which may stand anywhere in the list. -/
def remove (d : DList α) (x : α) : DList α :=
  let d' := ({ d with count := d.count - 1 }.bypassNext x).bypassPrevious x
  { d' with
    next := Function.update d'.next x none
    previous := Function.update d'.previous x none }

/-- The members met by following `next` at most `fuel` times. -/
def walk (next : α → Option α) : ℕ → Option α → List α
  | 0, _ => []
  | _, none => []
  | fuel + 1, some x => x :: walk next fuel (next x)

/-- The members in order. -/
def toList (d : DList α) : List α := walk d.next d.count d.head

end DList

/-- What a search does at one member. -/
inductive Scan where
  | skip
  | take
  | stop
  deriving DecidableEq

/-- Walk a list up to the first member that is taken or that stops the search. -/
def scanList (f : α → Scan) : List α → Option α
  | [] => none
  | x :: xs =>
    match f x with
    | .skip => scanList f xs
    | .take => some x
    | .stop => none

namespace DList

/-- The walk of `search`; it makes at most `fuel` steps along `next`. -/
def searchFrom (next : α → Option α) (f : α → Scan) : ℕ → Option α → Option α
  | 0, _ => none
  | _, none => none
  | fuel + 1, some x =>
    match f x with
    | .skip => searchFrom next f fuel (next x)
    | .take => some x
    | .stop => none

/-- Walk the list from the head up to the first member that is taken or that stops the search. -/
def search (d : DList α) (f : α → Scan) : Option α := searchFrom d.next f d.count d.head

/-- **The anchor and the heap hold exactly the list `l`.** -/
structure Represents (d : DList α) (l : List α) : Prop where
  nodup : l.Nodup
  count_eq : d.count = l.length
  head_eq : d.head = l.head?
  tail_eq : d.tail = l.getLast?
  linked : Linked d.next d.previous none l none

omit [DecidableEq α] in
theorem represents_empty : (DList.empty : DList α).Represents [] :=
  ⟨List.nodup_nil, rfl, rfl, rfl, trivial⟩

/-- **Append is `l ++ [x]` (proved).** -/
theorem represents_append {d : DList α} {l : List α} {x : α} (h : d.Represents l) (hx : x ∉ l) :
    (d.append x).Represents (l ++ [x]) := by
  have hnd : (l ++ [x]).Nodup := by
    rw [List.nodup_append]
    exact ⟨h.nodup, List.nodup_singleton x, fun a ha b hb hab => hx (by simp_all)⟩
  rcases List.eq_nil_or_concat' l with rfl | ⟨xs, t, rfl⟩
  · have htail : d.tail = none := h.tail_eq
    refine ⟨hnd, ?_, ?_, ?_, ?_⟩ <;> simp [append, htail, h.count_eq, Linked]
  · have htail : d.tail = some t := by rw [h.tail_eq]; simp
    have hxt : x ≠ t := by
      rintro rfl
      exact hx (by simp)
    have hold : ∀ y ∈ xs ++ [t], y ≠ x := by
      rintro y hy rfl
      exact hx hy
    refine ⟨hnd, ?_, ?_, ?_, ?_⟩
    · simp [append, htail, h.count_eq]
    · have hhead : (xs ++ [t] ++ [x]).head? = (xs ++ [t]).head? := by
        cases xs <;> rfl
      simp only [append, htail, h.head_eq, hhead]
    · simp [append, htail]
    · simp only [append, htail]
      rw [linked_append]
      refine ⟨?_, ?_, ?_, trivial⟩
      · refine linked_setNext (n := none) h.nodup ?_
        exact linked_congr (fun y hy => Function.update_of_ne (hold y hy) _ _)
          (fun y hy => Function.update_of_ne (hold y hy) _ _) h.linked
      · simp
      · simp [Function.update_of_ne hxt]

/-- The forward link around `x`: the part before `x` now ends at the part behind it. -/
theorem bypassNext_linked {d : DList α} {a b : List α} {x : α} (hnd : (a ++ x :: b).Nodup)
    (hhead : d.head = (a ++ x :: b).head?) (hl : Linked d.next d.previous none (a ++ x :: b) none) :
    (d.bypassNext x).head = (a ++ b).head? ∧ (d.bypassNext x).previous = d.previous ∧
      (d.bypassNext x).next x = b.head? ∧
      Linked (d.bypassNext x).next d.previous none a b.head? ∧
      Linked (d.bypassNext x).next d.previous (some x) b none := by
  rw [linked_append] at hl
  obtain ⟨ha, hprev, hnext, hb⟩ := hl
  simp only [Option.or_none] at hprev hnext
  have hdisj := (List.nodup_append.mp hnd).2.2
  rcases List.eq_nil_or_concat' a with rfl | ⟨a', p, rfl⟩
  · have hp : d.previous x = none := hprev
    simp only [bypassNext, hp, List.nil_append]
    exact ⟨hnext, trivial, hnext, trivial, hb⟩
  · have hp : d.previous x = some p := by simpa using hprev
    have hpx : x ≠ p := fun h => hdisj p (by simp) x List.mem_cons_self h.symm
    have hpb : ∀ y ∈ b, y ≠ p := fun y hy h => hdisj p (by simp) y (List.mem_cons_of_mem _ hy) h.symm
    have hhead' : d.head = (a' ++ [p] ++ b).head? := by
      rw [hhead]
      cases a' <;> rfl
    simp only [bypassNext, hp]
    refine ⟨hhead', trivial, ?_, ?_, ?_⟩
    · rw [Function.update_of_ne hpx, hnext]
    · rw [hnext]
      exact linked_setNext (List.nodup_append.mp hnd).1 ha
    · exact linked_congr (fun y hy => Function.update_of_ne (hpb y hy) _ _) (fun _ _ => rfl) hb

/-- The backward link around `x`: the part behind `x` now starts after the part before it. -/
theorem bypassPrevious_linked {d : DList α} {a b : List α} {x : α} (hnd : (a ++ x :: b).Nodup)
    (htail : d.tail = (a ++ x :: b).getLast?) (hnext : d.next x = b.head?)
    (hprev : d.previous x = a.getLast?) (ha : Linked d.next d.previous none a b.head?)
    (hb : Linked d.next d.previous (some x) b none) :
    (d.bypassPrevious x).tail = (a ++ b).getLast? ∧ (d.bypassPrevious x).head = d.head ∧
      (d.bypassPrevious x).next = d.next ∧ (d.bypassPrevious x).count = d.count ∧
      Linked d.next (d.bypassPrevious x).previous none (a ++ b) none := by
  simp only [linked_append, Option.or_none]
  cases b with
  | nil =>
    have hn : d.next x = none := hnext
    simp only [bypassPrevious, hn, List.append_nil]
    exact ⟨hprev, trivial, trivial, trivial, ha, trivial⟩
  | cons m b' =>
    have hn : d.next x = some m := hnext
    have ham : ∀ y ∈ a, y ≠ m := fun y hy h =>
      (List.nodup_append.mp hnd).2.2 y hy m (by simp) h
    have htail' : d.tail = (a ++ m :: b').getLast? := by
      rw [htail, List.getLast?_append, List.getLast?_append, List.getLast?_cons_cons]
    simp only [bypassPrevious, hn]
    refine ⟨htail', trivial, trivial, trivial, ?_, ?_⟩
    · exact linked_congr (fun _ _ => rfl) (fun y hy => Function.update_of_ne (ham y hy) _ _) ha
    · rw [hprev]
      exact linked_setPrevious (List.nodup_cons.mp (List.nodup_append.mp hnd).2.1).2 hb

/-- **Removal is `l.erase x` (proved),** wherever `x` stands in the list. -/
theorem represents_remove {d : DList α} {l : List α} {x : α} (h : d.Represents l) (hx : x ∈ l) :
    (d.remove x).Represents (l.erase x) := by
  obtain ⟨a, b, rfl⟩ := List.append_of_mem hx
  have hxa : x ∉ a := fun hxa =>
    (List.nodup_append.mp h.nodup).2.2 x hxa x List.mem_cons_self rfl
  have hxb : x ∉ b := (List.nodup_cons.mp (List.nodup_append.mp h.nodup).2.1).1
  have herase : (a ++ x :: b).erase x = a ++ b := by
    rw [List.erase_append_right _ hxa, List.erase_cons_head]
  have hprev : d.previous x = a.getLast? := by
    have := (linked_append.mp h.linked).2.1
    simpa using this
  let d₀ : DList α := { d with count := d.count - 1 }
  obtain ⟨hhead, hp₁, hn₁, ha₁, hb₁⟩ :=
    bypassNext_linked (d := d₀) h.nodup h.head_eq h.linked
  have hcount : (d₀.bypassNext x).count = d.count - 1 ∧ (d₀.bypassNext x).tail = d.tail := by
    unfold bypassNext
    split <;> exact ⟨rfl, rfl⟩
  have hp₁' : (d₀.bypassNext x).previous = d.previous := hp₁
  obtain ⟨htail, hhead₂, hn₂, hc₂, hl₂⟩ :=
    bypassPrevious_linked (d := d₀.bypassNext x) h.nodup (hcount.2.trans h.tail_eq) hn₁
      (by rw [hp₁', hprev]) (by rw [hp₁']; exact ha₁) (by rw [hp₁']; exact hb₁)
  have hne : ∀ y ∈ a ++ b, y ≠ x := by
    rintro y hy rfl
    rcases List.mem_append.mp hy with hy | hy
    · exact hxa hy
    · exact hxb hy
  rw [herase]
  refine ⟨?_, ?_, hhead₂.trans hhead, htail, ?_⟩
  · rw [← herase]
    exact h.nodup.erase x
  · show ((d₀.bypassNext x).bypassPrevious x).count = (a ++ b).length
    rw [hc₂, hcount.1, h.count_eq]
    simp
  · refine linked_congr (fun y hy => ?_) (fun y hy => Function.update_of_ne (hne y hy) _ _) hl₂
    rw [← hn₂]
    exact Function.update_of_ne (hne y hy) _ _

/-! ### Walks -/

omit [DecidableEq α]

/-- **The pointer walk is the list walk (proved).** -/
theorem search_represents {d : DList α} {l : List α} (h : d.Represents l) (f : α → Scan) :
    d.search f = scanList f l := by
  have key : ∀ (l : List α) (p : Option α), Linked d.next d.previous p l none →
      searchFrom d.next f l.length l.head? = scanList f l := by
    intro l
    induction l with
    | nil => intro _ _; rfl
    | cons x xs ih =>
      intro p hl
      obtain ⟨_, hnext, hxs⟩ := hl
      simp only [Option.or_none] at hnext
      show (match f x with
        | .skip => searchFrom d.next f xs.length (d.next x)
        | .take => some x
        | .stop => none) = _
      rw [hnext, ih _ hxs]
      rfl
  rw [search, h.count_eq, h.head_eq]
  exact key l none h.linked

/-- The walk along `next` recovers the list. -/
theorem toList_represents {d : DList α} {l : List α} (h : d.Represents l) : d.toList = l := by
  have key : ∀ (l : List α) (p : Option α), Linked d.next d.previous p l none →
      walk d.next l.length l.head? = l := by
    intro l
    induction l with
    | nil => intro _ _; rfl
    | cons x xs ih =>
      intro p hl
      obtain ⟨_, hnext, hxs⟩ := hl
      simp only [Option.or_none] at hnext
      show x :: walk d.next xs.length (d.next x) = x :: xs
      rw [hnext, ih _ hxs]
  rw [toList, h.count_eq, h.head_eq]
  exact key l none h.linked

end DList

/-! ### List walks -/

omit [DecidableEq α] in
/-- A walk that finds `x` skips everything in front of it. -/
theorem scanList_eq_some {f : α → Scan} {x : α} : ∀ {l : List α}, scanList f l = some x →
    f x = .take ∧ ∃ a b, l = a ++ x :: b ∧ ∀ y ∈ a, f y = .skip := by
  intro l
  induction l with
  | nil => intro h; cases h
  | cons y ys ih =>
    intro h
    unfold scanList at h
    split at h
    next hskip =>
      obtain ⟨hx, a, b, rfl, hall⟩ := ih h
      refine ⟨hx, y :: a, b, rfl, ?_⟩
      intro z hz
      rcases List.mem_cons.mp hz with rfl | hz
      · exact hskip
      · exact hall z hz
    next htake =>
      cases h
      exact ⟨htake, [], ys, rfl, by simp⟩
    next => cases h

end Connio.Lib
