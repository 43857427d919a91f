import Connio.Lib.TailList
import Mathlib.Data.List.TakeWhile
import Mathlib.Tactic.Tauto

/-!
# Tables of singly linked lists

Some lists whose members carry a `next` pointer, one for each hash value; a member is found with the address of the
pointer to it, by which it is taken off, replaced or added.

* `ForwardLists`, `Link` — the heads and the pointers, and the address of one of them;
* `ForwardLists.search` — the walk, up to a member that is looked for or to the end;
* `ForwardLists.Holds`, `holds_write` — **PROVED**: a store to a pointer changes what is behind it;
* `ForwardLists.Represents` — the lists are a map from keys to members;
* `Represents.lookup`, `Represents.exchanged` — **PROVED**: the operations are those of the map.
-/

namespace Connio.Lib

variable {ι κ α : Type}

/-- The heads of the lists, and the pointers of the members. -/
structure ForwardLists (ι α : Type) where
  head : ι → Option α
  next : α → Option α

/-- The address of a pointer. -/
inductive Link (ι α : Type) where
  | head (i : ι)
  | next (x : α)

/-- The address of the pointer behind some members. -/
def Link.after (p : Link ι α) (members : List α) : Link ι α := members.foldl (fun _ x => .next x) p

namespace ForwardLists

variable (d : ForwardLists ι α)

/-- `*p` -/
def read : Link ι α → Option α
  | .head i => d.head i
  | .next x => d.next x

/-- Walk from a pointer to the next one, until it is NULL or points to a member that is looked for; at most `fuel`
members are passed. -/
def search (found : α → Bool) : ℕ → Link ι α → Link ι α
  | 0, p => p
  | fuel + 1, p =>
    match d.read p with
    | some x => if found x then p else search found fuel (.next x)
    | none => p

/-- **The heads and the pointers hold exactly the lists.** -/
structure Holds (d : ForwardLists ι α) (l : ι → List α) : Prop where
  head : ∀ i, d.head i = (l i).head?
  chained : ∀ i, Chained d.next (l i)
  nodup : ∀ i, (l i).Nodup
  apart : ∀ i j x, x ∈ l i → x ∈ l j → i = j

section Walks

variable {d} {l : List α} {p : Link ι α}

/-- What the pointer behind some members points to. -/
theorem read_after {members behind : List α} (hp : d.read p = (members ++ behind).head?)
    (h : Chained d.next (members ++ behind)) : d.read (p.after members) = behind.head? := by
  induction members generalizing p with
  | nil => exact hp
  | cons x members ih => exact ih h.1 h.2

/-- The pointer that the walk ends at is behind the members that are not looked for. -/
theorem search_after {found : α → Bool} {fuel : ℕ} (hp : d.read p = l.head?) (h : Chained d.next l)
    (hfuel : l.length < fuel) : d.search found fuel p = p.after (l.takeWhile fun x => !found x) := by
  induction l generalizing p fuel with
  | nil =>
    obtain ⟨fuel, rfl⟩ : ∃ k, fuel = k + 1 := ⟨fuel - 1, by rw [List.length_nil] at hfuel; omega⟩
    rw [search, hp]
    rfl
  | cons x l ih =>
    obtain ⟨fuel, rfl⟩ : ∃ k, fuel = k + 1 := ⟨fuel - 1, by rw [List.length_cons] at hfuel; omega⟩
    have hread : d.read p = some x := hp
    rw [search, hread]
    show (if found x then p else d.search found fuel (.next x)) = _
    cases hfound : found x with
    | true =>
      rw [if_pos rfl, List.takeWhile_cons_of_neg (by rw [hfound]; exact Bool.false_ne_true)]
      rfl
    | false =>
      rw [if_neg Bool.false_ne_true, List.takeWhile_cons_of_pos (by rw [hfound]; rfl)]
      exact ih h.1 h.2 (by rw [List.length_cons] at hfuel; omega)

end Walks

/-! ### Stores -/

variable [DecidableEq ι] [DecidableEq α]

/-- `*p = v` -/
def write (p : Link ι α) (v : Option α) : ForwardLists ι α :=
  match p with
  | .head i => { d with head := Function.update d.head i v }
  | .next x => { d with next := Function.update d.next x v }

section Stores

variable {d} {l : ι → List α} {i : ι} {members behind behind' : List α} {x y : α}

omit [DecidableEq ι] [DecidableEq α] in
/-- The end of a chain is a chain. -/
theorem chained_behind {next : α → Option α} (h : Chained next (members ++ behind)) : Chained next behind := by
  induction members with
  | nil => exact h
  | cons x members ih => exact ih h.2

omit [DecidableEq ι] in
/-- Another list is linked behind a member. -/
theorem chained_splice {next : α → Option α} (h : Chained next (members ++ y :: behind)) (hmembers : y ∉ members)
    (hy : y ∉ behind') (hbehind : Chained next behind') :
    Chained (Function.update next y behind'.head?) (members ++ y :: behind') := by
  induction members with
  | nil =>
    refine ⟨Function.update_self .., hbehind.congr fun z hz => Function.update_of_ne (fun heq => hy ?_) ..⟩
    rw [← heq]
    exact hz
  | cons z members ih =>
    obtain ⟨hz, hrest⟩ := h
    obtain ⟨hne, hnot⟩ : z ≠ y ∧ y ∉ members := by
      rw [List.mem_cons, not_or] at hmembers
      exact ⟨fun heq => hmembers.1 heq.symm, hmembers.2⟩
    refine ⟨?_, ih hrest hnot⟩
    rw [Function.update_of_ne hne, hz]
    cases members <;> rfl

/-- **A store to a pointer (proved)** puts another list behind it. -/
theorem holds_write (h : d.Holds l) (hl : l i = members ++ behind) (hbehind : Chained d.next behind')
    (hnodup : (members ++ behind').Nodup) (hapart : ∀ x ∈ behind', ∀ j, x ∈ l j → j = i) :
    (d.write ((Link.head i).after members) behind'.head?).Holds (Function.update l i (members ++ behind')) := by
  have hmem : ∀ j x, x ∈ Function.update l i (members ++ behind') j → x ∈ l j ∨ j = i ∧ x ∈ behind' := by
    intro j x hx
    by_cases hj : j = i
    · rw [hj, Function.update_self] at hx
      rcases List.mem_append.mp hx with hx | hx
      · rw [hj, hl]
        exact .inl (List.mem_append_left _ hx)
      · exact .inr ⟨hj, hx⟩
    · rw [Function.update_of_ne hj] at hx
      exact .inl hx
  have hdisjoint : ∀ j k x, x ∈ Function.update l i (members ++ behind') j →
      x ∈ Function.update l i (members ++ behind') k → j = k := by
    intro j k x hj hk
    rcases hmem j x hj with hold | ⟨heq, hnew⟩ <;> rcases hmem k x hk with hold' | ⟨heq', hnew'⟩
    · exact h.apart j k x hold hold'
    · exact (hapart x hnew' j hold).trans heq'.symm
    · exact heq.trans (hapart x hnew k hold').symm
    · exact heq.trans heq'.symm
  have hnodups : ∀ j, (Function.update l i (members ++ behind') j).Nodup := by
    intro j
    by_cases hj : j = i
    · rw [hj, Function.update_self]
      exact hnodup
    · rw [Function.update_of_ne hj]
      exact h.nodup j
  rcases List.eq_nil_or_concat' members with rfl | ⟨members, y, rfl⟩
  · refine ⟨fun j => ?_, fun j => ?_, hnodups, hdisjoint⟩
    · show Function.update d.head i behind'.head? j = _
      by_cases hj : j = i
      · rw [hj, Function.update_self, Function.update_self]
        rfl
      · rw [Function.update_of_ne hj, Function.update_of_ne hj]
        exact h.head j
    · show Chained d.next _
      by_cases hj : j = i
      · rw [hj, Function.update_self]
        exact hbehind
      · rw [Function.update_of_ne hj]
        exact h.chained j
  · have hlink : (Link.head i).after (members ++ [y]) = .next y := by
      rw [Link.after, List.foldl_append]
      rfl
    have hlist : l i = members ++ y :: behind := by
      rw [hl, List.append_assoc, List.singleton_append]
    have hnew : members ++ [y] ++ behind' = members ++ y :: behind' := by
      rw [List.append_assoc, List.singleton_append]
    rw [hnew] at hnodup
    have hparts := List.nodup_middle.mp hnodup
    have hy : y ∉ members ++ behind' := (List.nodup_cons.mp hparts).1
    rw [List.mem_append, not_or] at hy
    have hyi : y ∈ l i := by
      rw [hlist]
      exact List.mem_append_right _ List.mem_cons_self
    rw [hlink]
    refine ⟨fun j => ?_, fun j => ?_, hnodups, hdisjoint⟩
    · show d.head j = _
      by_cases hj : j = i
      · rw [hj, Function.update_self, h.head, hlist, hnew]
        cases members <;> rfl
      · rw [Function.update_of_ne hj]
        exact h.head j
    · show Chained (Function.update d.next y behind'.head?) _
      by_cases hj : j = i
      · rw [hj, Function.update_self, hnew]
        have hchained := h.chained i
        rw [hlist] at hchained
        exact chained_splice hchained hy.1 hy.2 hbehind
      · rw [Function.update_of_ne hj]
        refine (h.chained j).congr fun z hz => Function.update_of_ne (fun heq => hj ?_) ..
        rw [heq] at hz
        exact h.apart j i y hz hyi

omit [DecidableEq ι] in
/-- The pointer of something that is on no list. -/
theorem holds_setNext (h : d.Holds l) (hx : ∀ j, x ∉ l j) (v : Option α) :
    ({ d with next := Function.update d.next x v } : ForwardLists ι α).Holds l := by
  refine ⟨h.head, fun j => (h.chained j).congr fun y hy => Function.update_of_ne (fun heq => hx j ?_) .., h.nodup,
    h.apart⟩
  rw [← heq]
  exact hy

end Stores

/-! ### The map -/

/-- Find what is looked for from a pointer on, and exchange it: it is replaced, or taken off; or `x` is added at the end. -/
def exchange (found : α → Bool) (fuel : ℕ) (p : Link ι α) (x : Option α) : Option α × ForwardLists ι α :=
  let p := d.search found fuel p
  match d.read p, x with
  | some old, some x => (some old, ({ d with next := Function.update d.next x (d.next old) } : ForwardLists ι α).write p (some x))
  | some old, none => (some old, d.write p (d.next old))
  | none, some x => (none, ({ d with next := Function.update d.next x none } : ForwardLists ι α).write p (some x))
  | none, none => (none, d)

/-- **The lists are a map:** each member is on the list of its key, and no two members have one key. -/
structure Represents (hash : κ → ι) (key : α → κ) (d : ForwardLists ι α) (m : κ → Option α) (l : ι → List α) : Prop where
  holds : d.Holds l
  home : ∀ i, ∀ x ∈ l i, hash (key x) = i
  keys : ∀ i, ((l i).map key).Nodup
  map : ∀ k x, m k = some x ↔ x ∈ l (hash k) ∧ key x = k

section Maps

variable [DecidableEq κ] {d} {hash : κ → ι} {key : α → κ} {m : κ → Option α} {l : ι → List α} {k : κ} {fuel : ℕ}

omit [DecidableEq ι] [DecidableEq α] [DecidableEq κ] in
/-- The keys of what is on no list do not matter. -/
theorem Represents.congr (h : Represents hash key d m l) {key' : α → κ} (hkey : ∀ i, ∀ x ∈ l i, key' x = key x) :
    Represents hash key' d m l := by
  refine ⟨h.holds, fun i x hx => ?_, fun i => ?_, fun k x => ?_⟩
  · rw [hkey i x hx]
    exact h.home i x hx
  · rw [List.map_congr_left (hkey i)]
    exact h.keys i
  · rw [h.map]
    exact and_congr_right fun hx => by rw [hkey _ x hx]

omit [DecidableEq ι] [DecidableEq α] [DecidableEq κ] in
/-- A member is that of its key. -/
theorem Represents.map_key (h : Represents hash key d m l) {i : ι} {x : α} (hx : x ∈ l i) : m (key x) = some x :=
  (h.map _ x).mpr ⟨by rw [h.home i x hx]; exact hx, rfl⟩

omit [DecidableEq ι] [DecidableEq α] in
/-- The list of a key: the members that the walk passes, the one that it looks for, and the members behind this. -/
theorem Represents.split (h : Represents hash key d m l) (k : κ) : ∃ members behind,
    (l (hash k)).takeWhile (fun x => !decide (key x = k)) = members ∧
      l (hash k) = members ++ ((m k).toList ++ behind) ∧ (∀ x ∈ members ++ behind, key x ≠ k) ∧
      (m k = none → behind = []) := by
  cases hk : m k with
  | none =>
    have hne : ∀ x ∈ l (hash k), key x ≠ k := fun x hx hkey => by
      rw [(h.map k x).mpr ⟨hx, hkey⟩] at hk
      cases hk
    refine ⟨l (hash k), [], ?_, by rw [Option.toList_none, List.append_nil, List.append_nil], ?_, fun _ => rfl⟩
    · exact List.takeWhile_eq_self_iff.mpr fun x hx => by simp [hne x hx]
    · rw [List.append_nil]
      exact hne
  | some x =>
    obtain ⟨hx, hkey⟩ := (h.map k x).mp hk
    obtain ⟨members, behind, hlist⟩ := List.append_of_mem hx
    have hnodup := h.keys (hash k)
    rw [hlist, List.map_append, List.map_cons] at hnodup
    have hparts := List.nodup_middle.mp hnodup
    have hnot : key x ∉ (members ++ behind).map key := by
      rw [List.map_append]
      exact (List.nodup_cons.mp hparts).1
    have hne : ∀ y ∈ members ++ behind, key y ≠ k := fun y hy heq => hnot (by
      rw [hkey, ← heq]
      exact List.mem_map_of_mem hy)
    refine ⟨members, behind, ?_, hlist, hne, fun hnone => by cases hnone⟩
    rw [hlist, List.takeWhile_append_of_pos fun y hy => by simp [hne y (List.mem_append_left _ hy)],
      List.takeWhile_cons_of_neg (by simp [hkey]), List.append_nil]

omit [DecidableEq ι] [DecidableEq α] in
/-- **A walk finds the member of a key (proved),** or the end of its list. -/
theorem Represents.search (h : Represents hash key d m l) (hfuel : (l (hash k)).length < fuel) {members behind : List α}
    (hmembers : (l (hash k)).takeWhile (fun x => !decide (key x = k)) = members)
    (hlist : l (hash k) = members ++ ((m k).toList ++ behind)) (hbehind : m k = none → behind = []) :
    d.search (fun x => key x = k) fuel (.head (hash k)) = (Link.head (hash k)).after members ∧
      d.read ((Link.head (hash k)).after members) = m k := by
  have hhead : d.read (.head (hash k)) = (l (hash k)).head? := h.holds.head (hash k)
  have hchained := h.holds.chained (hash k)
  refine ⟨?_, ?_⟩
  · rw [search_after hhead hchained hfuel, hmembers]
  · rw [hlist] at hhead hchained
    rw [read_after hhead hchained]
    cases hk : m k with
    | none => rw [hbehind hk]; rfl
    | some x => rfl

omit [DecidableEq ι] [DecidableEq α] in
/-- **A lookup is that of the map (proved).** -/
theorem Represents.lookup (h : Represents hash key d m l) (hfuel : (l (hash k)).length < fuel) :
    d.read (d.search (fun x => key x = k) fuel (.head (hash k))) = m k := by
  obtain ⟨members, behind, hmembers, hlist, -, hbehind⟩ := h.split k
  obtain ⟨hsearch, hread⟩ := h.search hfuel hmembers hlist hbehind
  rw [hsearch, hread]

omit [DecidableEq α] in
/-- One list of a map changes in what it has for one key. -/
theorem Represents.update (h : Represents hash key d m l) {members behind : List α} {x : Option α}
    (hlist : l (hash k) = members ++ ((m k).toList ++ behind)) (hne : ∀ y ∈ members ++ behind, key y ≠ k)
    (hx : ∀ y, x = some y → key y = k) {d' : ForwardLists ι α}
    (hholds : d'.Holds (Function.update l (hash k) (members ++ (x.toList ++ behind)))) :
    Represents hash key d' (Function.update m k x) (Function.update l (hash k) (members ++ (x.toList ++ behind))) := by
  have hmem : ∀ y, y ∈ members ++ (x.toList ++ behind) ↔ y ∈ members ++ behind ∨ x = some y := by
    intro y
    simp only [List.mem_append, Option.mem_toList]
    tauto
  have hold : ∀ y, y ∈ members ++ behind → y ∈ l (hash k) := by
    intro y hy
    rw [hlist]
    simp only [List.mem_append] at hy ⊢
    tauto
  have hsub : ∀ y, y ∈ l (hash k) → key y ≠ k → y ∈ members ++ behind := by
    intro y hy hkey
    rw [hlist] at hy
    simp only [List.mem_append, Option.mem_toList] at hy ⊢
    rcases hy with hy | hy | hy
    · exact .inl hy
    · exact absurd ((h.map k y).mp hy).2 hkey
    · exact .inr hy
  refine ⟨hholds, fun i y hy => ?_, fun i => ?_, fun k' y => ?_⟩
  · by_cases hi : i = hash k
    · rw [hi, Function.update_self, hmem] at hy
      rcases hy with hy | hy
      · rw [hi]
        exact h.home _ y (hold y hy)
      · rw [hx y hy, hi]
    · rw [Function.update_of_ne hi] at hy
      exact h.home i y hy
  · by_cases hi : i = hash k
    · have hkeys := h.keys (hash k)
      have hsublist : (members ++ behind).Sublist (l (hash k)) := by
        rw [hlist]
        exact (List.Sublist.refl members).append (List.sublist_append_right _ _)
      have hrest := (hsublist.map key).nodup hkeys
      rw [hi, Function.update_self]
      cases x with
      | none => exact hrest
      | some x =>
        rw [List.map_append] at hrest ⊢
        refine List.nodup_middle.mpr (List.nodup_cons.mpr ⟨fun hin => ?_, hrest⟩)
        rw [← List.map_append] at hin
        obtain ⟨y, hy, hkey⟩ := List.mem_map.mp hin
        exact hne y hy (hkey.trans (hx x rfl))
    · rw [Function.update_of_ne hi]
      exact h.keys i
  · by_cases hk : k' = k
    · rw [hk, Function.update_self, Function.update_self, hmem]
      refine ⟨fun hy => ⟨.inr hy, hx y hy⟩, fun ⟨hy, hkey⟩ => ?_⟩
      exact hy.elim (fun hin => absurd hkey (hne y hin)) id
    · rw [Function.update_of_ne hk, h.map]
      by_cases hi : hash k' = hash k
      · rw [hi, Function.update_self, hmem]
        refine and_congr_left fun hkey => ⟨fun hy => .inl (hsub y hy ?_), fun hy => ?_⟩
        · rw [hkey]
          exact hk
        · exact hy.elim (hold y) fun heq => absurd ((hx y heq).symm.trans hkey).symm hk
      · rw [Function.update_of_ne hi]

/-- **An exchange is that of the map (proved):** what it finds is what the map has had, and it has now what is put
there, which must be new and have the key. -/
theorem Represents.exchanged (h : Represents hash key d m l) (hfuel : (l (hash k)).length < fuel) {x : Option α}
    (hkey : ∀ y, x = some y → key y = k) (hnew : ∀ y, x = some y → ∀ j, y ∉ l j) :
    (d.exchange (fun y => key y = k) fuel (.head (hash k)) x).1 = m k ∧
      ∃ l', Represents hash key (d.exchange (fun y => key y = k) fuel (.head (hash k)) x).2 (Function.update m k x) l' := by
  obtain ⟨members, behind, hmembers, hlist, hne, hbehind⟩ := h.split k
  obtain ⟨hsearch, hread⟩ := h.search hfuel hmembers hlist hbehind
  -- what a store leaves when `x` is linked to what is behind it
  have hwrite : ∀ d' : ForwardLists ι α, d'.Holds l → Chained d'.next (x.toList ++ behind) →
      ∃ l', Represents hash key (d'.write ((Link.head (hash k)).after members) (x.toList ++ behind).head?)
        (Function.update m k x) l' := by
    intro d' hd' hchained
    have hnodup := hd'.nodup (hash k)
    rw [hlist] at hnodup
    have hsublist : (members ++ behind).Sublist (members ++ ((m k).toList ++ behind)) :=
      (List.Sublist.refl members).append (List.sublist_append_right _ _)
    refine ⟨_, h.update hlist hne hkey (holds_write hd' hlist hchained ?_ fun y hy j hyj => ?_)⟩
    · cases x with
      | none => exact hsublist.nodup hnodup
      | some y =>
        refine List.nodup_middle.mpr (List.nodup_cons.mpr ⟨fun hy => hnew y rfl (hash k) ?_, hsublist.nodup hnodup⟩)
        rw [hlist]
        exact hsublist.subset hy
    · rcases List.mem_append.mp hy with hy | hy
      · exact absurd hyj (hnew y (Option.mem_toList.mp hy) j)
      · refine hd'.apart j (hash k) y hyj ?_
        rw [hlist]
        exact List.mem_append_right _ (List.mem_append_right _ hy)
  have hchain := h.holds.chained (hash k)
  rw [hlist] at hchain
  have hchain := chained_behind hchain
  simp only [exchange, hsearch, hread]
  cases hk : m k with
  | none =>
    cases x with
    | none =>
      have hsame : Function.update m k none = m := by
        rw [← hk, Function.update_eq_self]
      rw [hsame]
      exact ⟨rfl, l, h⟩
    | some y =>
      have hd' := holds_setNext h.holds (hnew y rfl) none
      have hnil := hbehind hk
      refine ⟨rfl, hwrite _ hd' ⟨?_, ?_⟩⟩
      · rw [hnil]
        exact Function.update_self ..
      · rw [hnil]
        trivial
  | some old =>
    rw [hk] at hchain
    obtain ⟨hold, hrest⟩ := hchain
    have hold : d.next old = behind.head? := hold
    cases x with
    | none =>
      refine ⟨rfl, ?_⟩
      have hdone := hwrite d h.holds hrest
      rw [Option.toList_none, List.nil_append, ← hold] at hdone
      exact hdone
    | some y =>
      have hd' := holds_setNext h.holds (hnew y rfl) (d.next old)
      refine ⟨rfl, hwrite _ hd' ⟨(Function.update_self ..).trans hold, hrest.congr fun z hz => ?_⟩⟩
      refine Function.update_of_ne (fun heq => hnew y rfl (hash k) ?_) ..
      rw [← heq, hlist]
      exact List.mem_append_right _ (List.mem_append_right _ hz)

end Maps

end ForwardLists

end Connio.Lib
