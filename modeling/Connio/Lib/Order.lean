import Mathlib.Data.List.Basic
import Mathlib.Data.List.Nodup
import Mathlib.Data.List.Count

/-!
# Relative order in a history

`[x, y] <+ l` says that `x` stands before `y` in `l`.  In a list without repetitions this is a strict
order, and a sublist keeps it.  The file also has the facts about projections of a history
(`List.filterMap`) that a development needs to read a history entry by entry.

* `pair_total`, `pair_asymm`, `pair_of_sublist` — relative order in a list without repetitions;
* `mem_left_of_pair` — what stands before the middle of `a ++ x :: b`;
* `filterMap_injOn` — entries with the same projection are equal when the projection has no
  repetition;
* `Entrywise` — a property of every entry with respect to the entries before it.
-/

namespace Connio.Lib

variable {α β : Type}

theorem pair_total {l : List α} {x y : α} (hx : x ∈ l) (hy : y ∈ l) (hne : x ≠ y) :
    [x, y].Sublist l ∨ [y, x].Sublist l := by
  obtain ⟨a, b, rfl⟩ := List.append_of_mem hx
  rcases List.mem_append.mp hy with hy | hy
  · right
    have h1 : [y].Sublist a := List.singleton_sublist.mpr hy
    have h2 : [x].Sublist (x :: b) := List.singleton_sublist.mpr List.mem_cons_self
    exact h1.append h2
  · left
    have hyb : y ∈ b := by
      rcases List.mem_cons.mp hy with h | h
      · exact absurd h.symm hne
      · exact h
    exact (List.Sublist.cons_cons x (List.singleton_sublist.mpr hyb)).trans
      (List.sublist_append_right a (x :: b))

theorem pair_asymm {l : List α} (hnd : l.Nodup) {x y : α} (h : [x, y].Sublist l) :
    ¬ [y, x].Sublist l := by
  induction l with
  | nil => cases h
  | cons z l ih =>
    obtain ⟨hz, hnd'⟩ := List.nodup_cons.mp hnd
    intro h'
    have hmem : ∀ {u v : α}, [u, v].Sublist (z :: l) → u = z ∨ [u, v].Sublist l := by
      intro u v huv
      cases huv with
      | cons _ h => exact .inr h
      | cons_cons _ h => exact .inl rfl
    have htail : ∀ {u v : α}, [u, v].Sublist (z :: l) → v ∈ l := by
      intro u v huv
      cases huv with
      | cons _ h => exact h.subset (by simp)
      | cons_cons _ h => exact List.singleton_sublist.mp h
    rcases hmem h with rfl | h1
    · exact hz (htail h')
    · rcases hmem h' with rfl | h2
      · exact hz (htail h)
      · exact ih hnd' h1 h2

/-- A sublist keeps the order of its members. -/
theorem pair_of_sublist {l L : List α} (hnd : L.Nodup) (hl : l.Sublist L) {x y : α} (hx : x ∈ l)
    (hy : y ∈ l) (h : [x, y].Sublist L) : [x, y].Sublist l := by
  have hne : x ≠ y := by
    rintro rfl
    have := hnd.sublist h
    simp at this
  rcases pair_total hx hy hne with h' | h'
  · exact h'
  · exact absurd (h'.trans hl) (pair_asymm hnd h)

/-- What stands before the middle of a list without repetitions is in its first part. -/
theorem mem_left_of_pair {a b : List α} {x y : α} (hnd : (a ++ x :: b).Nodup)
    (h : [y, x].Sublist (a ++ x :: b)) : y ∈ a := by
  have hy : y ∈ a ++ x :: b := h.subset (by simp)
  have hyx : y ≠ x := by
    rintro rfl
    have := hnd.sublist h
    simp at this
  rcases List.mem_append.mp hy with hya | hyb
  · exact hya
  · have hyb' : y ∈ b := by
      rcases List.mem_cons.mp hyb with h' | h'
      · exact absurd h' hyx
      · exact h'
    have h' : [x, y].Sublist (a ++ x :: b) :=
      (List.Sublist.cons_cons x (List.singleton_sublist.mpr hyb')).trans
        (List.sublist_append_right a (x :: b))
    exact absurd h (pair_asymm hnd h')

/-- Entries of a history with the same projection are equal when the projection has no repetition. -/
theorem filterMap_injOn {f : α → Option β} {l : List α} (hnd : (l.filterMap f).Nodup) {x y : α}
    (hx : x ∈ l) (hy : y ∈ l) {b : β} (hfx : f x = some b) (hfy : f y = some b) : x = y := by
  induction l with
  | nil => cases hx
  | cons z l ih =>
    by_cases hz : f z = some b
    · rw [List.filterMap_cons_some hz, List.nodup_cons] at hnd
      have hnone : ∀ w ∈ l, f w ≠ some b := fun w hw hfw =>
        hnd.1 (List.mem_filterMap.mpr ⟨w, hw, hfw⟩)
      rcases List.mem_cons.mp hx with rfl | hx
      · rcases List.mem_cons.mp hy with rfl | hy
        · rfl
        · exact absurd hfy (hnone y hy)
      · exact absurd hfx (hnone x hx)
    · have hx' : x ∈ l := by
        rcases List.mem_cons.mp hx with rfl | hx
        · exact absurd hfx hz
        · exact hx
      have hy' : y ∈ l := by
        rcases List.mem_cons.mp hy with rfl | hy
        · exact absurd hfy hz
        · exact hy
      refine ih ?_ hx' hy'
      cases hfz : f z with
      | none => rwa [List.filterMap_cons_none hfz] at hnd
      | some c =>
        rw [List.filterMap_cons_some hfz, List.nodup_cons] at hnd
        exact hnd.2

/-! ### Entry by entry -/

/-- Every entry of a history meets `P` with respect to the entries that came before it; the history is
newest first. -/
def Entrywise (P : α → List α → Prop) : List α → Prop
  | [] => True
  | x :: t => P x t ∧ Entrywise P t

theorem entrywise_iff {P : α → List α → Prop} {l : List α} :
    Entrywise P l ↔ ∀ x t, (x :: t).IsSuffix l → P x t := by
  induction l with
  | nil =>
    refine ⟨fun _ x t h => ?_, fun _ => trivial⟩
    exact absurd (List.eq_nil_of_suffix_nil h) (by simp)
  | cons y l ih =>
    constructor
    · rintro ⟨hy, hl⟩ x t hs
      rcases List.suffix_cons_iff.mp hs with h | h
      · cases h
        exact hy
      · exact ih.mp hl x t h
    · intro h
      exact ⟨h y l List.suffix_rfl,
        ih.mpr fun x t hs => h x t (hs.trans (List.suffix_cons y l))⟩

theorem entrywise_append {P : α → List α → Prop} {l₁ l₂ : List α}
    (h₁ : ∀ x ∈ l₁, ∀ t, P x t) (h₂ : Entrywise P l₂) : Entrywise P (l₁ ++ l₂) := by
  induction l₁ with
  | nil => exact h₂
  | cons x l₁ ih =>
    exact ⟨h₁ x List.mem_cons_self _, ih fun y hy => h₁ y (List.mem_cons_of_mem _ hy)⟩

end Connio.Lib
