import Connio.Lib.DoublyLinked

/-!
# Doubly linked lists with a head only

Many lists of one kind of members: each list has a `head`, and each member its `next` and `previous` pointers and the
list it is on, its `home`.

* `HeadLists` with `insert`, `remove` and `clear` — pointer-level, as a C program writes them;
* `HeadLists.Holds` — the heads and the pointers hold exactly the lists `l`, and a member on no list has no pointers;
* `holds_insert`, `holds_remove` — **PROVED**: the operations are `x :: l i` and `(l i).erase x`;
* `holds_cleared` — **PROVED**: all members of a list are cleared.
-/

namespace Connio.Lib

/-- The heads of the lists, and the pointers of the members. -/
structure HeadLists (ι α : Type) where
  head : ι → Option α
  next : α → Option α
  previous : α → Option α
  /-- the list that the member is on -/
  home : α → Option ι

namespace HeadLists

variable {ι α : Type} [DecidableEq ι] [DecidableEq α]

/-- No list has a member. -/
def empty : HeadLists ι α where
  head := fun _ => none
  next := fun _ => none
  previous := fun _ => none
  home := fun _ => none

variable (d : HeadLists ι α)

/-- `x` becomes the head of a list. -/
def insert (i : ι) (x : α) : HeadLists ι α where
  head := Function.update d.head i (some x)
  next := Function.update d.next x (d.head i)
  previous :=
    match d.head i with
    | some y => Function.update d.previous y (some x)
    | none => d.previous
  home := Function.update d.home x (some i)

/-- Route the forward link of a list around `x`. -/
def bypassNext (i : ι) (x : α) : HeadLists ι α :=
  match d.previous x with
  | some p => { d with next := Function.update d.next p (d.next x) }
  | none => { d with head := Function.update d.head i (d.next x) }

/-- Route the backward link around `x`. -/
def bypassPrevious (x : α) : HeadLists ι α :=
  match d.next x with
  | some n => { d with previous := Function.update d.previous n (d.previous x) }
  | none => d

/-- `x` loses its pointers. -/
def clear (x : α) : HeadLists ι α :=
  { d with
    previous := Function.update d.previous x none
    next := Function.update d.next x none
    home := Function.update d.home x none }

/-- `x` is taken off a list. -/
def remove (i : ι) (x : α) : HeadLists ι α := ((d.bypassNext i x).bypassPrevious x).clear x

/-- **The heads and the pointers hold exactly the lists.** -/
structure Holds (d : HeadLists ι α) (l : ι → List α) : Prop where
  nodup : ∀ i, (l i).Nodup
  head : ∀ i, d.head i = (l i).head?
  linked : ∀ i, Linked d.next d.previous none (l i) none
  home : ∀ x i, d.home x = some i ↔ x ∈ l i
  cleared : ∀ x, d.home x = none → d.next x = none ∧ d.previous x = none

omit [DecidableEq ι] [DecidableEq α] in
theorem holds_empty : (empty : HeadLists ι α).Holds fun _ => [] where
  nodup _ := List.nodup_nil
  head _ := rfl
  linked _ := trivial
  home _ _ := iff_of_false (fun h => by cases h) List.not_mem_nil
  cleared _ _ := ⟨rfl, rfl⟩

variable {d} {l : ι → List α} {i : ι} {x : α}

omit [DecidableEq ι] [DecidableEq α] in
/-- A member is on one list. -/
theorem Holds.home_unique (h : d.Holds l) {j : ι} (hi : x ∈ l i) (hj : x ∈ l j) : i = j :=
  Option.some.inj (((h.home x i).mpr hi).symm.trans ((h.home x j).mpr hj))

omit [DecidableEq ι] [DecidableEq α] in
theorem Holds.not_mem (h : d.Holds l) (hx : d.home x = none) (i : ι) : x ∉ l i := by
  intro hmem
  rw [← h.home, hx] at hmem
  cases hmem

/-- One list changes, and one member goes on it or off it. -/
theorem home_update {home : α → Option ι} {v : Option ι} {m : List α} (h : ∀ y j, home y = some j ↔ y ∈ l j)
    (hself : ∀ j, v = some j ↔ x ∈ Function.update l i m j) (hm : ∀ y, y ≠ x → (y ∈ m ↔ y ∈ l i)) (y : α) (j : ι) :
    Function.update home x v y = some j ↔ y ∈ Function.update l i m j := by
  by_cases hy : y = x
  · rw [hy, Function.update_self]
    exact hself j
  · rw [Function.update_of_ne hy, h]
    by_cases hj : j = i
    · rw [hj, Function.update_self]
      exact (hm y hy).symm
    · rw [Function.update_of_ne hj]

/-! ### Insertion -/

/-- What an insertion leaves. -/
theorem insert_frame (h : d.Holds l) {y : α} (hyx : y ≠ x) (hy : y ∉ l i) :
    (d.insert i x).next y = d.next y ∧ (d.insert i x).previous y = d.previous y := by
  refine ⟨Function.update_of_ne hyx .., ?_⟩
  unfold insert
  cases hz : d.head i with
  | none => rfl
  | some z =>
    rw [h.head] at hz
    have hyz : y ≠ z := fun heq => hy (heq ▸ List.mem_of_head? hz)
    exact Function.update_of_ne hyz ..

/-- The list that `x` is put on. -/
theorem insert_linked (h : d.Holds l) (hx : d.home x = none) :
    Linked (d.insert i x).next (d.insert i x).previous none (x :: l i) none := by
  have hxi := h.not_mem hx i
  have hold : ∀ y ∈ l i, Function.update d.next x (d.head i) y = d.next y := by
    intro y hy
    have hyx : y ≠ x := fun heq => hxi (heq ▸ hy)
    exact Function.update_of_ne hyx ..
  have hprevious := (h.cleared x hx).2
  have hlinked := h.linked i
  have hnodup := h.nodup i
  have hhead := h.head i
  unfold insert
  rw [hhead] at hold ⊢
  cases hl : l i with
  | nil => exact ⟨hprevious, Function.update_self .., trivial⟩
  | cons y ys =>
    rw [hl] at hlinked hnodup hold hxi
    have hxy : x ≠ y := fun heq => hxi (heq ▸ List.mem_cons_self)
    refine ⟨(Function.update_of_ne hxy ..).trans hprevious, Function.update_self .., ?_⟩
    exact linked_congr hold (fun _ _ => rfl) (linked_setPrevious hnodup hlinked)

/-- **An insertion is `x :: l i` (proved).** -/
theorem holds_insert (h : d.Holds l) (hx : d.home x = none) (i : ι) :
    (d.insert i x).Holds (Function.update l i (x :: l i)) where
  nodup := by
    refine (Function.forall_update_iff l fun _ m => m.Nodup).mpr ⟨?_, fun j _ => h.nodup j⟩
    exact List.nodup_cons.mpr ⟨h.not_mem hx i, h.nodup i⟩
  head := by
    refine (Function.forall_update_iff l fun j m => (d.insert i x).head j = m.head?).mpr ⟨?_, fun j hj => ?_⟩
    · exact Function.update_self ..
    · exact (Function.update_of_ne hj ..).trans (h.head j)
  linked := by
    refine (Function.forall_update_iff l fun _ m =>
      Linked (d.insert i x).next (d.insert i x).previous none m none).mpr ⟨insert_linked h hx, fun j hj => ?_⟩
    have hframe : ∀ y ∈ l j, (d.insert i x).next y = d.next y ∧ (d.insert i x).previous y = d.previous y := by
      intro y hy
      exact insert_frame h (fun heq => h.not_mem hx j (heq ▸ hy)) fun hyi => hj (h.home_unique hy hyi)
    exact linked_congr (fun y hy => (hframe y hy).1) (fun y hy => (hframe y hy).2) (h.linked j)
  home := by
    refine home_update h.home (fun j => ?_) fun y hy => by rw [List.mem_cons, or_iff_right hy]
    by_cases hj : j = i
    · rw [hj, Function.update_self]
      exact iff_of_true rfl List.mem_cons_self
    · rw [Function.update_of_ne hj]
      exact iff_of_false (fun heq => hj (Option.some.inj heq).symm) (h.not_mem hx j)
  cleared y hy := by
    have hyx : y ≠ x := by
      rintro rfl
      rw [show (d.insert i y).home y = some i from Function.update_self ..] at hy
      cases hy
    have hhome : d.home y = none := (Function.update_of_ne hyx ..).symm.trans hy
    obtain ⟨hnext, hprevious⟩ := insert_frame h hyx (h.not_mem hhome i)
    rw [hnext, hprevious]
    exact h.cleared y hhome

/-! ### Removal -/

/-- One list as a list with a tail and a count. -/
def toDList (d : HeadLists ι α) (i : ι) (m : List α) : DList α where
  head := d.head i
  tail := m.getLast?
  count := m.length
  next := d.next
  previous := d.previous

omit [DecidableEq ι] [DecidableEq α] in
theorem Holds.represents (h : d.Holds l) (i : ι) : (d.toDList i (l i)).Represents (l i) :=
  ⟨h.nodup i, rfl, h.head i, rfl, h.linked i⟩

/-- A removal does to the links what it does in a list with a tail. -/
theorem remove_toDList (d : HeadLists ι α) (i : ι) (x : α) (m : List α) :
    (d.remove i x).head i = ((d.toDList i m).remove x).head ∧
      (d.remove i x).next = ((d.toDList i m).remove x).next ∧
      (d.remove i x).previous = ((d.toDList i m).remove x).previous := by
  unfold remove DList.remove bypassNext DList.bypassNext bypassPrevious DList.bypassPrevious clear toDList
  cases hp : d.previous x with
  | none =>
    cases hn : d.next x <;> simp [hp, hn]
  | some p =>
    cases hn : Function.update d.next p (d.next x) x <;> simp [hp, hn]

omit [DecidableEq ι] [DecidableEq α] in
/-- The neighbours of a member are on its list. -/
theorem Holds.neighbours (h : d.Holds l) (hx : x ∈ l i) :
    (∀ p, d.previous x = some p → p ∈ l i) ∧ ∀ n, d.next x = some n → n ∈ l i := by
  have hlinked := h.linked i
  obtain ⟨a, b, hab⟩ := List.append_of_mem hx
  rw [hab, linked_append] at hlinked
  obtain ⟨_, hprevious, hnext, _⟩ := hlinked
  rw [Option.or_none] at hprevious hnext
  rw [hab]
  refine ⟨fun p hp => ?_, fun n hn => ?_⟩
  · rw [hprevious] at hp
    exact List.mem_append_left _ (List.mem_of_getLast? hp)
  · rw [hnext] at hn
    exact List.mem_append_right _ (List.mem_cons_of_mem x (List.mem_of_head? hn))

/-- What a removal leaves. -/
theorem remove_frame (h : d.Holds l) (hx : x ∈ l i) :
    (∀ j, j ≠ i → (d.remove i x).head j = d.head j) ∧ (d.remove i x).home = Function.update d.home x none ∧
      ∀ y, y ∉ l i → (d.remove i x).next y = d.next y ∧ (d.remove i x).previous y = d.previous y := by
  obtain ⟨hp, hn⟩ := h.neighbours hx
  have hne : ∀ {y z}, y ∉ l i → z ∈ l i → y ≠ z := fun hy hz heq => hy (heq ▸ hz)
  -- the forward link
  have hforward : (∀ j, j ≠ i → (d.bypassNext i x).head j = d.head j) ∧ (d.bypassNext i x).home = d.home ∧
      (d.bypassNext i x).previous = d.previous ∧ (∀ y, y ∉ l i → (d.bypassNext i x).next y = d.next y) ∧
      ∀ n, (d.bypassNext i x).next x = some n → n ∈ l i := by
    unfold bypassNext
    split
    next p hxp =>
      refine ⟨fun _ _ => rfl, rfl, rfl, fun y hy => Function.update_of_ne (hne hy (hp p hxp)) .., fun n hxn => hn n ?_⟩
      have hxn' : Function.update d.next p (d.next x) x = some n := hxn
      by_cases hpx : x = p
      · rw [← hpx, Function.update_self] at hxn'
        exact hxn'
      · rw [Function.update_of_ne hpx] at hxn'
        exact hxn'
    next => exact ⟨fun j hj => Function.update_of_ne hj .., rfl, rfl, fun _ _ => rfl, hn⟩
  obtain ⟨hhead, hhome, hprevious, hnext, hxn⟩ := hforward
  -- the backward link
  have hbackward : ((d.bypassNext i x).bypassPrevious x).head = (d.bypassNext i x).head ∧
      ((d.bypassNext i x).bypassPrevious x).home = (d.bypassNext i x).home ∧
      ((d.bypassNext i x).bypassPrevious x).next = (d.bypassNext i x).next ∧
      ∀ y, y ∉ l i → ((d.bypassNext i x).bypassPrevious x).previous y = (d.bypassNext i x).previous y := by
    unfold bypassPrevious
    split
    next n hn => exact ⟨rfl, rfl, rfl, fun y hy => Function.update_of_ne (hne hy (hxn n hn)) ..⟩
    next => exact ⟨rfl, rfl, rfl, fun _ _ => rfl⟩
  obtain ⟨hhead', hhome', hnext', hprevious'⟩ := hbackward
  refine ⟨fun j hj => ?_, ?_, fun y hy => ⟨?_, ?_⟩⟩
  · exact (congrFun hhead' j).trans (hhead j hj)
  · show Function.update ((d.bypassNext i x).bypassPrevious x).home x none = _
    rw [hhome', hhome]
  · refine (Function.update_of_ne (hne hy hx) ..).trans ?_
    rw [hnext']
    exact hnext y hy
  · refine (Function.update_of_ne (hne hy hx) ..).trans ((hprevious' y hy).trans ?_)
    rw [hprevious]

omit [DecidableEq ι] in
theorem Holds.erase_of_none (h : d.Holds l) (hx : d.home x = none) : (fun j => (l j).erase x) = l :=
  funext fun j => List.erase_of_not_mem (h.not_mem hx j)

/-- The lists without a member: it is on one of them. -/
theorem Holds.erase_of_some (h : d.Holds l) (hx : d.home x = some i) :
    (fun j => (l j).erase x) = Function.update l i ((l i).erase x) := by
  funext j
  by_cases hj : j = i
  · rw [hj, Function.update_self]
  · rw [Function.update_of_ne hj]
    exact List.erase_of_not_mem fun hmem => hj (h.home_unique hmem ((h.home x i).mp hx))

/-- **A removal is `(l i).erase x` (proved),** wherever `x` stands in its list. -/
theorem holds_remove (h : d.Holds l) (hx : d.home x = some i) :
    (d.remove i x).Holds (Function.update l i ((l i).erase x)) := by
  have hmem : x ∈ l i := (h.home x i).mp hx
  have hrepresents := DList.represents_remove (h.represents i) hmem
  obtain ⟨hhead, hnext, hprevious⟩ := remove_toDList d i x (l i)
  obtain ⟨hheads, hhome, hframe⟩ := remove_frame h hmem
  have hother : ∀ j, j ≠ i → ∀ y ∈ l j, y ∉ l i := fun j hj y hy hyi => hj (h.home_unique hy hyi)
  refine ⟨?_, ?_, ?_, ?_, fun y hy => ?_⟩
  · refine (Function.forall_update_iff l fun _ m => m.Nodup).mpr ⟨?_, fun j _ => h.nodup j⟩
    exact (h.nodup i).erase x
  · refine (Function.forall_update_iff l fun j m => (d.remove i x).head j = m.head?).mpr ⟨?_, fun j hj => ?_⟩
    · rw [hhead]
      exact hrepresents.head_eq
    · rw [hheads j hj]
      exact h.head j
  · refine (Function.forall_update_iff l fun _ m =>
      Linked (d.remove i x).next (d.remove i x).previous none m none).mpr ⟨?_, fun j hj => ?_⟩
    · rw [hnext, hprevious]
      exact hrepresents.linked
    · exact linked_congr (fun y hy => (hframe y (hother j hj y hy)).1) (fun y hy => (hframe y (hother j hj y hy)).2)
        (h.linked j)
  · rw [hhome]
    refine home_update h.home (fun j => iff_of_false (fun heq => by cases heq) ?_) fun y hy => List.mem_erase_of_ne hy
    by_cases hj : j = i
    · rw [hj, Function.update_self]
      exact (h.nodup i).not_mem_erase
    · rw [Function.update_of_ne hj]
      exact fun hxj => hj (h.home_unique hxj hmem)
  · by_cases hyx : y = x
    · rw [hyx]
      exact ⟨Function.update_self .., Function.update_self ..⟩
    · rw [hhome, Function.update_of_ne hyx] at hy
      obtain ⟨hnext', hprevious'⟩ := hframe y (h.not_mem hy i)
      rw [hnext', hprevious']
      exact h.cleared y hy

/-! ### A whole list -/

/-- **All members of a list are cleared (proved),** and its head is. -/
theorem holds_cleared (h : d.Holds l) {d' : HeadLists ι α} (hhead : d'.head = Function.update d.head i none)
    (hin : ∀ y ∈ l i, d'.next y = none ∧ d'.previous y = none ∧ d'.home y = none)
    (hout : ∀ y, y ∉ l i → d'.next y = d.next y ∧ d'.previous y = d.previous y ∧ d'.home y = d.home y) :
    d'.Holds (Function.update l i []) where
  nodup := (Function.forall_update_iff l fun _ m => m.Nodup).mpr ⟨List.nodup_nil, fun j _ => h.nodup j⟩
  head := by
    rw [hhead]
    refine (Function.forall_update_iff l fun j m => Function.update d.head i none j = m.head?).mpr ⟨?_, fun j hj => ?_⟩
    · exact Function.update_self ..
    · exact (Function.update_of_ne hj ..).trans (h.head j)
  linked := by
    refine (Function.forall_update_iff l fun _ m => Linked d'.next d'.previous none m none).mpr ⟨trivial, fun j hj => ?_⟩
    have hother : ∀ y ∈ l j, y ∉ l i := fun y hy hyi => hj (h.home_unique hy hyi)
    exact linked_congr (fun y hy => (hout y (hother y hy)).1) (fun y hy => (hout y (hother y hy)).2.1) (h.linked j)
  home y j := by
    by_cases hy : y ∈ l i
    · rw [(hin y hy).2.2]
      refine iff_of_false (fun heq => by cases heq) fun hyj => ?_
      by_cases hj : j = i
      · rw [hj, Function.update_self] at hyj
        cases hyj
      · rw [Function.update_of_ne hj] at hyj
        exact hj (h.home_unique hyj hy)
    · rw [(hout y hy).2.2, h.home]
      by_cases hj : j = i
      · rw [hj, Function.update_self]
        exact iff_of_false hy List.not_mem_nil
      · rw [Function.update_of_ne hj]
  cleared y hy := by
    by_cases hyi : y ∈ l i
    · exact ⟨(hin y hyi).1, (hin y hyi).2.1⟩
    · obtain ⟨hnext, hprevious, hhome⟩ := hout y hyi
      rw [hnext, hprevious]
      exact h.cleared y (hhome.symm.trans hy)

end HeadLists

end Connio.Lib
