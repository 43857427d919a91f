import Connio.Lib.SplitRemoval
import Connio.Lib.Transition

/-!
# Walks through the conns in use

`ConnHandleConnectionsAbortEx`, `ConnHandleConnectionsCloseEx`, `CloseHandleConnections` and
`ConnHandleWaitForChildrenToExit` walk along `conn->list.next` through `handle->inUse` (`connio.c`).  They have
`handle->mutex`, and `ConnListAppend` and `ConnListRemove` have `list->mutex`, so that each step of the walk may fall
between any two steps of other threads.

* `ConnPlace`, `WalkPlace`, `InUse` — where the conns are, where the walk is, and the list;
* `InUseAction`, `inUseStep` — who moves, and one step;
* `WalkSound` — what is in the list all the time is visited once, and nothing that has been recycled;
* `WalkSpared` — a step that does not take away the conn at which the walk stands;
* `reachable_walkSound` — **PROVED**: it is so as long as all steps spare the walk;
* `walkSound_fails` — **PROVED**: a conn that is removed while it is visited ends the walk.
-/

namespace Connio

open Connio.Lib

/-! ### The list and the walk -/

/-- Where a conn is. -/
inductive ConnPlace where
  /-- in the cache, or taken out of it and not yet appended -/
  | cached
  | listed
  /-- `ConnListRemove` has released the lock, and has not cleared the pointers of the conn yet -/
  | unlinked
  /-- `ConnListRemove` has returned, and the conn has not been recycled yet -/
  | removed
  deriving DecidableEq, Repr

/-- Where the walk is. -/
inductive WalkPlace where
  | waiting
  /-- about to visit a conn; at NULL the walk is over -/
  | visiting (conn : Option ℕ)
  /-- about to read `conn->list.next` -/
  | visited (conn : ℕ)
  deriving DecidableEq, Repr

/-- The conn at which the walk stands. -/
def WalkPlace.at_ : WalkPlace → Option ℕ
  | waiting => none
  | visiting conn => conn
  | visited conn => some conn

/-- `handle->inUse` with its conns and one walk. -/
structure InUse where
  list : DList ℕ := DList.empty
  place : ℕ → ConnPlace := fun _ => .cached
  walk : WalkPlace := .waiting
  /-- the conns visited.  No modelled function reads this and the next two. -/
  visits : List ℕ := []
  /-- the conns that have been in the list since the walk began -/
  throughout : List ℕ := []
  /-- a conn has been visited that had been removed and recycled -/
  visitedRecycled : Bool := false

inductive InUseAction where
  /-- `conn = handle->inUse.head` -/
  | begin
  /-- the body of the loop -/
  | visit
  /-- `conn = conn->list.next` -/
  | next
  /-- `ConnListAppend` -/
  | append (conn : ℕ)
  /-- `ConnListRemove`, while it has the lock -/
  | unlink (conn : ℕ)
  /-- `conn->list.next = conn->list.previous = NULL` -/
  | clear (conn : ℕ)
  /-- `ConnRecycle` -/
  | recycle (conn : ℕ)
  deriving DecidableEq, Repr

/-- A conn is somewhere else. -/
def InUse.put (s : InUse) (conn : ℕ) (p : ConnPlace) : InUse := { s with place := Function.update s.place conn p }

/-- **One step;** `none` when the action is not enabled. -/
def inUseStep (s : InUse) : InUseAction → Option InUse
  | .begin =>
    if s.walk = .waiting then
      some { s with walk := .visiting s.list.head, throughout := s.list.toList }
    else none
  | .visit =>
    match s.walk with
    | .visiting (some conn) =>
      some { s with
        walk := .visited conn
        visits := conn :: s.visits
        visitedRecycled := s.visitedRecycled || s.place conn = .cached }
    | _ => none
  | .next =>
    match s.walk with
    | .visited conn => some { s with walk := .visiting (s.list.next conn) }
    | _ => none
  | .append conn =>
    if s.place conn = .cached then
      some { s.put conn .listed with list := s.list.append conn }
    else none
  | .unlink conn =>
    if s.place conn = .listed then
      some { s.put conn .unlinked with
        list := s.list.unlink conn
        throughout := s.throughout.filter (· ≠ conn) }
    else none
  | .clear conn =>
    if s.place conn = .unlinked then
      some { s.put conn .removed with list := s.list.clear conn }
    else none
  | .recycle conn => if s.place conn = .removed then some (s.put conn .cached) else none

/-- **What is in the list all the time is visited exactly once,** and nothing that has been recycled. -/
structure WalkSound (s : InUse) : Prop where
  once : ∀ conn ∈ s.throughout, s.visits.count conn ≤ 1
  all : s.walk = .visiting none → ∀ conn ∈ s.throughout, s.visits.count conn = 1
  recycled : s.visitedRecycled = false

/-- **The step spares the walk:** the conn at which it stands keeps its pointer while this leads on, is not recycled
before the visit, and is not left behind with a pointer to a conn that is unlinked. -/
def WalkSpared (s : InUse) : InUseAction → Prop
  | .unlink conn => ∀ c ∈ s.walk.at_, s.place c = .unlinked → s.list.next c ≠ some conn
  | .clear conn => s.walk.at_ = some conn → s.list.next conn = none
  | .recycle conn => s.walk ≠ .visiting (some conn)
  | _ => True

instance (s : InUse) (a : InUseAction) : Decidable (WalkSpared s a) :=
  match a with
  | .unlink conn =>
    inferInstanceAs (Decidable (∀ c ∈ s.walk.at_, s.place c = .unlinked → s.list.next c ≠ some conn))
  | .clear conn => inferInstanceAs (Decidable (s.walk.at_ = some conn → s.list.next conn = none))
  | .recycle conn => inferInstanceAs (Decidable (s.walk ≠ .visiting (some conn)))
  | .begin | .visit | .next | .append _ => isTrue trivial

/-! ### The invariant -/

/-- **The walk has a part of the list behind it and a part ahead:** where it stands, and the pointer that it follows. -/
def InUse.Standing (s : InUse) (a b : List ℕ) : WalkPlace → Prop
  | .waiting => s.throughout = [] ∧ s.visits = []
  | .visiting none => b = []
  | .visiting (some c) =>
    s.place c = .listed ∧ b.head? = some c ∨
      (s.place c = .unlinked ∨ s.place c = .removed) ∧ s.list.next c = b.head?
  | .visited c => s.place c = .listed ∧ a.getLast? = some c ∨ s.place c ≠ .listed ∧ s.list.next c = b.head?

structure WalkInv (s : InUse) (a b : List ℕ) : Prop where
  represents : s.list.Represents (a ++ b)
  listed : ∀ c, s.place c = .listed ↔ c ∈ a ++ b
  cleared : ∀ c, s.place c = .removed ∨ s.place c = .cached → s.list.next c = none
  throughout : ∀ c ∈ s.throughout, c ∈ a ∧ s.visits.count c = 1 ∨ c ∈ b ∧ s.visits.count c = 0
  standing : s.Standing a b s.walk
  recycled : s.visitedRecycled = false

section Steps

variable {s s' : InUse} {a b : List ℕ} {conn : ℕ}

theorem WalkInv.sound (h : WalkInv s a b) : WalkSound s := by
  refine ⟨fun c hc => ?_, fun hover c hc => ?_, h.recycled⟩
  · rcases h.throughout c hc with ⟨_, hcount⟩ | ⟨_, hcount⟩ <;> omega
  · have hstanding := h.standing
    rw [hover] at hstanding
    rcases h.throughout c hc with ⟨_, hcount⟩ | ⟨hb, _⟩
    · exact hcount
    · have hnil : b = [] := hstanding
      rw [hnil] at hb
      cases hb

/-- A conn that is elsewhere is not in the list. -/
theorem WalkInv.not_mem (h : WalkInv s a b) {c : ℕ} (hc : s.place c ≠ .listed) : c ∉ a ++ b :=
  fun hmem => hc ((h.listed c).mpr hmem)

/-- A conn that has left the list is not back. -/
theorem left_ne {p : ConnPlace} (hp : p = .unlinked ∨ p = .removed) : p ≠ .cached ∧ p ≠ .listed := by
  rcases hp with rfl | rfl <;> decide

theorem cleared_ne {p : ConnPlace} (hp : p = .removed ∨ p = .cached) : p ≠ .listed := by
  rcases hp with rfl | rfl <;> decide

/-- The walk begins. -/
theorem WalkInv.begin (h : WalkInv s a b) (hwalk : s.walk = .waiting) :
    WalkInv { s with walk := .visiting s.list.head, throughout := s.list.toList } [] (a ++ b) := by
  have hvisits : s.visits = [] := by
    have hstanding := h.standing
    rw [hwalk] at hstanding
    exact hstanding.2
  refine ⟨h.represents, h.listed, h.cleared, fun c hc => Or.inr ⟨?_, ?_⟩, ?_, h.recycled⟩
  · have hc' : c ∈ s.list.toList := hc
    rw [DList.toList_represents h.represents] at hc'
    exact hc'
  · show s.visits.count c = 0
    rw [hvisits]
    rfl
  · have hhead := h.represents.head_eq
    show InUse.Standing _ [] (a ++ b) (.visiting s.list.head)
    rw [hhead]
    cases hl : a ++ b with
    | nil => rfl
    | cons c rest => exact Or.inl ⟨(h.listed c).mpr (hl ▸ List.mem_cons_self), rfl⟩

/-- A conn is visited. -/
theorem WalkInv.visit (h : WalkInv s a b) (hwalk : s.walk = .visiting (some conn)) :
    ∃ a' b', WalkInv { s with
      walk := .visited conn
      visits := conn :: s.visits
      visitedRecycled := s.visitedRecycled || s.place conn = .cached } a' b' := by
  have hstanding := h.standing
  rw [hwalk] at hstanding
  rcases hstanding with ⟨hplace, hhead⟩ | ⟨hplace, hnext⟩
  · -- the conn is the first of those ahead
    obtain ⟨rest, rfl⟩ : ∃ rest, b = conn :: rest := by
      cases b with
      | nil => cases hhead
      | cons c rest =>
        rw [List.head?_cons, Option.some.injEq] at hhead
        exact ⟨rest, by rw [hhead]⟩
    have hl : a ++ conn :: rest = (a ++ [conn]) ++ rest := by simp
    have hnodup := h.represents.nodup
    have ha : conn ∉ a := fun hmem => (List.nodup_append.mp hnodup).2.2 conn hmem conn List.mem_cons_self rfl
    have hrest : conn ∉ rest := (List.nodup_cons.mp (List.nodup_append.mp hnodup).2.1).1
    refine ⟨a ++ [conn], rest, hl ▸ h.represents, fun c => hl ▸ h.listed c, h.cleared, fun c hc => ?_, ?_, ?_⟩
    · rcases h.throughout c hc with ⟨hca, hcount⟩ | ⟨hcb, hcount⟩
      · have hne : conn ≠ c := fun heq => ha (heq ▸ hca)
        refine Or.inl ⟨List.mem_append_left _ hca, ?_⟩
        rw [List.count_cons_of_ne hne]
        exact hcount
      · rcases List.mem_cons.mp hcb with heq | hcb
        · refine Or.inl ⟨List.mem_append_right _ (List.mem_singleton.mpr heq), ?_⟩
          rw [heq] at hcount ⊢
          rw [List.count_cons_self, hcount]
        · have hne : conn ≠ c := fun heq => hrest (heq ▸ hcb)
          refine Or.inr ⟨hcb, ?_⟩
          rw [List.count_cons_of_ne hne]
          exact hcount
    · exact Or.inl ⟨hplace, by simp⟩
    · show (s.visitedRecycled || decide (s.place conn = .cached)) = false
      rw [h.recycled, hplace]
      rfl
  · -- the conn is no longer in the list
    have hout : conn ∉ a ++ b := h.not_mem (left_ne hplace).2
    refine ⟨a, b, h.represents, h.listed, h.cleared, fun c hc => ?_, ?_, ?_⟩
    · have hne : conn ≠ c := by
        intro heq
        rcases h.throughout c hc with ⟨hca, _⟩ | ⟨hcb, _⟩
        · exact hout (heq ▸ List.mem_append_left _ hca)
        · exact hout (heq ▸ List.mem_append_right _ hcb)
      show c ∈ a ∧ (conn :: s.visits).count c = 1 ∨ c ∈ b ∧ (conn :: s.visits).count c = 0
      rw [List.count_cons_of_ne hne]
      exact h.throughout c hc
    · exact Or.inr ⟨(left_ne hplace).2, hnext⟩
    · show (s.visitedRecycled || decide (s.place conn = .cached)) = false
      rw [h.recycled, decide_eq_false (left_ne hplace).1]
      rfl

/-- The walk goes on. -/
theorem WalkInv.next (h : WalkInv s a b) (hwalk : s.walk = .visited conn) :
    WalkInv { s with walk := .visiting (s.list.next conn) } a b := by
  refine ⟨h.represents, h.listed, h.cleared, h.throughout, ?_, h.recycled⟩
  have hnext : s.list.next conn = b.head? := by
    have hstanding := h.standing
    rw [hwalk] at hstanding
    rcases hstanding with ⟨_, hlast⟩ | ⟨_, hnext⟩
    · obtain ⟨a', rfl⟩ := List.getLast?_eq_some_iff.mp hlast
      have hrep := h.represents
      rw [List.append_assoc, List.singleton_append] at hrep
      exact hrep.next_eq
    · exact hnext
  show InUse.Standing _ a b (.visiting (s.list.next conn))
  rw [hnext]
  cases b with
  | nil => rfl
  | cons c rest => exact Or.inl ⟨(h.listed c).mpr (List.mem_append_right _ List.mem_cons_self), rfl⟩

/-- A conn is appended. -/
theorem WalkInv.append (h : WalkInv s a b) (hplace : s.place conn = .cached) :
    ∃ a' b', WalkInv { s.put conn .listed with list := s.list.append conn } a' b' := by
  have hout : conn ∉ a ++ b := h.not_mem (by rw [hplace]; decide)
  have hrep := DList.represents_append h.represents hout
  have hlisted : ∀ c, Function.update s.place conn .listed c = .listed ↔ c ∈ a ++ b ++ [conn] := by
    intro c
    by_cases hc : c = conn
    · simp [hc]
    · rw [Function.update_of_ne hc, h.listed c]
      simp [hc]
  have hcleared : ∀ c, Function.update s.place conn .listed c = .removed ∨
      Function.update s.place conn .listed c = .cached → (s.list.append conn).next c = none := by
    intro c hc
    by_cases heq : c = conn
    · rw [heq, Function.update_self] at hc
      rcases hc with hc | hc <;> cases hc
    · rw [Function.update_of_ne heq] at hc
      rw [h.represents.next_append (h.not_mem (cleared_ne hc)) heq]
      exact h.cleared c hc
  have hkept : ∀ c, c ≠ conn → s.place c ≠ .listed → (s.list.append conn).next c = s.list.next c := by
    intro c hne hc
    exact h.represents.next_append (h.not_mem hc) hne
  have hnew : ∀ a' b', a' ++ b' = a ++ b ++ [conn] →
      (∀ c ∈ s.throughout, c ∈ a' ∧ s.visits.count c = 1 ∨ c ∈ b' ∧ s.visits.count c = 0) →
      InUse.Standing { s.put conn .listed with list := s.list.append conn } a' b' s.walk →
      WalkInv { s.put conn .listed with list := s.list.append conn } a' b' := by
    intro a' b' hsplit hthroughout hstanding
    exact ⟨hsplit ▸ hrep, fun c => hsplit ▸ hlisted c, hcleared, hthroughout, hstanding, h.recycled⟩
  have hne : ∀ c, s.place c ≠ .cached → c ≠ conn := fun c hc heq => hc (heq ▸ hplace)
  have hput : ∀ c, s.place c ≠ .cached → Function.update s.place conn .listed c = s.place c := fun c hc =>
    Function.update_of_ne (hne c hc) _ _
  have hstanding := h.standing
  cases b with
  | cons head rest =>
    -- the conn comes behind what is ahead
    refine ⟨a, head :: rest ++ [conn], hnew _ _ (by simp) (fun c hc => ?_) ?_⟩
    · rcases h.throughout c hc with hca | ⟨hcb, hcount⟩
      · exact Or.inl hca
      · exact Or.inr ⟨List.mem_append_left _ hcb, hcount⟩
    · match hwalk : s.walk with
      | .waiting =>
        rw [hwalk] at hstanding
        exact hstanding
      | .visiting none =>
        rw [hwalk] at hstanding
        cases hstanding
      | .visiting (some c) =>
        rw [hwalk] at hstanding
        rcases hstanding with ⟨hc, hhead⟩ | ⟨hc, hnext⟩
        · exact Or.inl ⟨(hput c (by rw [hc]; decide)).trans hc, hhead⟩
        · refine Or.inr ⟨?_, (hkept c (hne c (left_ne hc).1) (left_ne hc).2).trans hnext⟩
          rw [← hput c (left_ne hc).1] at hc
          exact hc
      | .visited c =>
        rw [hwalk] at hstanding
        rcases hstanding with ⟨hc, hlast⟩ | ⟨hc, hnext⟩
        · exact Or.inl ⟨(hput c (by rw [hc]; decide)).trans hc, hlast⟩
        · have hcne : c ≠ conn := by
            intro heq
            rw [heq, h.cleared conn (Or.inr hplace)] at hnext
            cases hnext
          refine Or.inr ⟨?_, (hkept c hcne hc).trans hnext⟩
          show Function.update s.place conn .listed c ≠ .listed
          rw [Function.update_of_ne hcne]
          exact hc
  | nil =>
    rw [List.append_nil] at hnew
    have hbehind : ∀ c ∈ s.throughout, c ∈ a ∧ s.visits.count c = 1 := by
      intro c hc
      rcases h.throughout c hc with hca | ⟨hcb, _⟩
      · exact hca
      · cases hcb
    have hall : ∀ c ∈ s.throughout, c ∈ a ++ [conn] ∧ s.visits.count c = 1 ∨ c ∈ [] ∧ s.visits.count c = 0 :=
      fun c hc => Or.inl ⟨List.mem_append_left _ (hbehind c hc).1, (hbehind c hc).2⟩
    match hwalk : s.walk with
    | .waiting =>
      rw [hwalk] at hstanding hnew
      exact ⟨_, [], hnew _ _ (List.append_nil _) hall hstanding⟩
    | .visiting none =>
      rw [hwalk] at hnew
      exact ⟨_, [], hnew _ _ (List.append_nil _) hall rfl⟩
    | .visiting (some c) =>
      rw [hwalk] at hstanding hnew
      rcases hstanding with ⟨_, hhead⟩ | ⟨hc, hnext⟩
      · cases hhead
      · refine ⟨_, [], hnew _ _ (List.append_nil _) hall
          (Or.inr ⟨?_, (hkept c (hne c (left_ne hc).1) (left_ne hc).2).trans hnext⟩)⟩
        rw [← hput c (left_ne hc).1] at hc
        exact hc
    | .visited c =>
      rw [hwalk] at hstanding hnew
      rcases hstanding with ⟨hc, hlast⟩ | ⟨hc, hnext⟩
      · -- the conn comes right behind the one at which the walk stands
        refine ⟨a, [conn], hnew _ _ rfl (fun x hx => Or.inl (hbehind x hx)) (Or.inl ⟨?_, hlast⟩)⟩
        exact (hput c (by rw [hc]; decide)).trans hc
      · refine ⟨_, [], hnew _ _ (List.append_nil _) hall ?_⟩
        by_cases hcc : c = conn
        · refine Or.inl ⟨?_, by simp [hcc]⟩
          rw [hcc]
          exact Function.update_self _ _ _
        · refine Or.inr ⟨?_, (hkept c hcc hc).trans hnext⟩
          show Function.update s.place conn .listed c ≠ .listed
          rw [Function.update_of_ne hcc]
          exact hc

/-- A conn is unlinked. -/
theorem WalkInv.unlink (h : WalkInv s a b) (hplace : s.place conn = .listed)
    (hspared : WalkSpared s (.unlink conn)) :
    ∃ a' b', WalkInv { s.put conn .unlinked with
      list := s.list.unlink conn
      throughout := s.throughout.filter (· ≠ conn) } a' b' := by
  have hin := (h.listed conn).mp hplace
  have hnodup := h.represents.nodup
  have hsplit : (a ++ b).erase conn = a.erase conn ++ b.erase conn := erase_append_of_nodup hnodup
  have hrep := DList.represents_unlink h.represents hin
  have hself : Function.update s.place conn .unlinked conn = .unlinked := Function.update_self _ _ _
  have hput : ∀ c, c ≠ conn → Function.update s.place conn .unlinked c = s.place c := fun c hc =>
    Function.update_of_ne hc _ _
  have hkept : ∀ c, c = conn ∨ s.place c ≠ .listed → (s.list.unlink conn).next c = s.list.next c := by
    intro c hc
    refine h.represents.next_unlink hin fun hmem => ?_
    obtain ⟨hne, hmem⟩ := hnodup.mem_erase_iff.mp hmem
    exact hc.elim hne fun hnot => hnot ((h.listed c).mpr hmem)
  refine ⟨a.erase conn, b.erase conn, hsplit ▸ hrep, fun c => ?_, fun c hc => ?_, fun c hc => ?_, ?_, h.recycled⟩
  · rw [← hsplit, hnodup.mem_erase_iff]
    show Function.update s.place conn .unlinked c = .listed ↔ _
    by_cases hc : c = conn
    · simp [hc]
    · rw [hput c hc, h.listed c]
      simp [hc]
  · have hne : c ≠ conn := by
      intro heq
      have hc' : Function.update s.place conn .unlinked c = .removed ∨
          Function.update s.place conn .unlinked c = .cached := hc
      rw [heq, hself] at hc'
      rcases hc' with hc' | hc' <;> cases hc'
    have hc' : s.place c = .removed ∨ s.place c = .cached := by
      rw [← hput c hne]
      exact hc
    rw [hkept c (Or.inr (cleared_ne hc'))]
    exact h.cleared c hc'
  · obtain ⟨hc, hne⟩ := List.mem_filter.mp hc
    have hne : c ≠ conn := of_decide_eq_true hne
    rcases h.throughout c hc with ⟨hca, hcount⟩ | ⟨hcb, hcount⟩
    · exact Or.inl ⟨(List.mem_erase_of_ne hne).mpr hca, hcount⟩
    · exact Or.inr ⟨(List.mem_erase_of_ne hne).mpr hcb, hcount⟩
  · have hstanding := h.standing
    -- a conn that is no longer in the list does not lead to the one that is unlinked
    have hhead : ∀ c, s.walk.at_ = some c → s.place c ≠ .listed → s.list.next c = b.head? →
        (b.erase conn).head? = b.head? := by
      intro c hat hc hnext
      refine head_erase fun hfirst => ?_
      rw [hfirst] at hnext
      by_cases hunlinked : s.place c = .unlinked
      · exact hspared c hat hunlinked hnext
      · have hcleared : s.place c = .removed ∨ s.place c = .cached := by
          cases hpc : s.place c <;> simp_all
        rw [h.cleared c hcleared] at hnext
        cases hnext
    show InUse.Standing _ _ _ s.walk
    match hwalk : s.walk with
    | .waiting =>
      rw [hwalk] at hstanding
      refine ⟨?_, hstanding.2⟩
      show s.throughout.filter (· ≠ conn) = []
      rw [hstanding.1]
      rfl
    | .visiting none =>
      rw [hwalk] at hstanding
      have hnil : b = [] := hstanding
      show b.erase conn = []
      rw [hnil]
      rfl
    | .visiting (some c) =>
      rw [hwalk] at hstanding hhead
      rcases hstanding with ⟨hc, hfirst⟩ | ⟨hc, hnext⟩
      · obtain ⟨rest, rfl⟩ : ∃ rest, b = c :: rest := by
          cases b with
          | nil => cases hfirst
          | cons x rest =>
            rw [List.head?_cons, Option.some.injEq] at hfirst
            exact ⟨rest, by rw [hfirst]⟩
        by_cases hcc : c = conn
        · rw [hcc, List.erase_cons_head]
          rw [hcc] at h
          exact Or.inr ⟨Or.inl hself, (hkept conn (Or.inl rfl)).trans h.represents.next_eq⟩
        · refine Or.inl ⟨(hput c hcc).trans hc, ?_⟩
          rw [head_erase]
          · rfl
          · rw [List.head?_cons, Ne, Option.some.injEq]
            exact hcc
      · have hnot : s.place c ≠ .listed := (left_ne hc).2
        have hcc : c ≠ conn := fun heq => hnot (heq ▸ hplace)
        refine Or.inr ⟨?_, (hkept c (Or.inr hnot)).trans (hnext.trans (hhead c rfl hnot hnext).symm)⟩
        rw [← hput c hcc] at hc
        exact hc
    | .visited c =>
      rw [hwalk] at hstanding hhead
      rcases hstanding with ⟨hc, hlast⟩ | ⟨hc, hnext⟩
      · obtain ⟨front, rfl⟩ := List.getLast?_eq_some_iff.mp hlast
        by_cases hcc : c = conn
        · have hrep := h.represents
          rw [hcc, List.append_assoc, List.singleton_append] at hrep
          have hb : conn ∉ b := (List.nodup_cons.mp (List.nodup_append.mp hrep.nodup).2.1).1
          refine Or.inr ⟨?_, ?_⟩
          · rw [hcc]
            show Function.update s.place conn .unlinked conn ≠ .listed
            rw [hself]
            decide
          · rw [List.erase_of_not_mem hb, hcc]
            exact (hkept conn (Or.inl rfl)).trans hrep.next_eq
        · refine Or.inl ⟨(hput c hcc).trans hc, ?_⟩
          rw [erase_concat hcc]
          simp
      · have hcc : c ≠ conn := fun heq => hc (heq ▸ hplace)
        refine Or.inr ⟨?_, (hkept c (Or.inr hc)).trans (hnext.trans (hhead c rfl hc hnext).symm)⟩
        show Function.update s.place conn .unlinked c ≠ .listed
        rw [hput c hcc]
        exact hc

/-- The pointers of a conn are cleared. -/
theorem WalkInv.clear (h : WalkInv s a b) (hplace : s.place conn = .unlinked)
    (hspared : WalkSpared s (.clear conn)) :
    WalkInv { s.put conn .removed with list := s.list.clear conn } a b := by
  have hout : conn ∉ a ++ b := h.not_mem (by rw [hplace]; decide)
  have hput : ∀ c, c ≠ conn → Function.update s.place conn .removed c = s.place c := fun c hc =>
    Function.update_of_ne hc _ _
  have hkept : ∀ c, s.walk.at_ = some c → (s.list.clear conn).next c = s.list.next c := by
    intro c hat
    by_cases hc : c = conn
    · rw [hc] at hat ⊢
      rw [hspared hat]
      exact Function.update_self _ _ _
    · exact Function.update_of_ne hc _ _
  refine ⟨(DList.represents_clear hout).mpr h.represents, fun c => ?_, fun c hc => ?_, h.throughout, ?_, h.recycled⟩
  · show Function.update s.place conn .removed c = .listed ↔ _
    by_cases hc : c = conn
    · rw [hc, Function.update_self]
      exact iff_of_false (by decide) hout
    · rw [hput c hc, h.listed c]
  · by_cases hcc : c = conn
    · rw [hcc]
      exact Function.update_self _ _ _
    · have hc' : s.place c = .removed ∨ s.place c = .cached := by
        rw [← hput c hcc]
        exact hc
      exact (Function.update_of_ne hcc _ _).trans (h.cleared c hc')
  · have hstanding := h.standing
    show InUse.Standing _ _ _ s.walk
    match hwalk : s.walk with
    | .waiting =>
      rw [hwalk] at hstanding
      exact hstanding
    | .visiting none =>
      rw [hwalk] at hstanding
      exact hstanding
    | .visiting (some c) =>
      rw [hwalk] at hstanding hkept
      rcases hstanding with ⟨hc, hfirst⟩ | ⟨hc, hnext⟩
      · have hcc : c ≠ conn := by
          intro heq
          rw [heq, hplace] at hc
          cases hc
        exact Or.inl ⟨(hput c hcc).trans hc, hfirst⟩
      · refine Or.inr ⟨?_, (hkept c rfl).trans hnext⟩
        show Function.update s.place conn .removed c = _ ∨ Function.update s.place conn .removed c = _
        by_cases hcc : c = conn
        · rw [hcc, Function.update_self]
          exact Or.inr rfl
        · rw [hput c hcc]
          exact hc
    | .visited c =>
      rw [hwalk] at hstanding hkept
      rcases hstanding with ⟨hc, hlast⟩ | ⟨hc, hnext⟩
      · have hcc : c ≠ conn := by
          intro heq
          rw [heq, hplace] at hc
          cases hc
        exact Or.inl ⟨(hput c hcc).trans hc, hlast⟩
      · refine Or.inr ⟨?_, (hkept c rfl).trans hnext⟩
        show Function.update s.place conn .removed c ≠ .listed
        by_cases hcc : c = conn
        · rw [hcc, Function.update_self]
          decide
        · rw [hput c hcc]
          exact hc

/-- A conn is recycled. -/
theorem WalkInv.recycle (h : WalkInv s a b) (hplace : s.place conn = .removed)
    (hspared : WalkSpared s (.recycle conn)) : WalkInv (s.put conn .cached) a b := by
  have hput : ∀ c, c ≠ conn → Function.update s.place conn .cached c = s.place c := fun c hc =>
    Function.update_of_ne hc _ _
  have hlisted : ∀ c, Function.update s.place conn .cached c = .listed ↔ s.place c = .listed := by
    intro c
    by_cases hc : c = conn
    · rw [hc, Function.update_self, hplace]
      decide
    · rw [hput c hc]
  refine ⟨h.represents, fun c => (hlisted c).trans (h.listed c), fun c hc => ?_, h.throughout, ?_, h.recycled⟩
  · by_cases hcc : c = conn
    · rw [hcc]
      exact h.cleared conn (Or.inl hplace)
    · have hc' : s.place c = .removed ∨ s.place c = .cached := by
        rw [← hput c hcc]
        exact hc
      exact h.cleared c hc'
  · have hstanding := h.standing
    show InUse.Standing _ _ _ s.walk
    match hwalk : s.walk with
    | .waiting =>
      rw [hwalk] at hstanding
      exact hstanding
    | .visiting none =>
      rw [hwalk] at hstanding
      exact hstanding
    | .visiting (some c) =>
      rw [hwalk] at hstanding
      have hcc : c ≠ conn := fun heq => hspared (heq ▸ hwalk)
      have hc' := hput c hcc
      rcases hstanding with ⟨hc, hfirst⟩ | ⟨hc, hnext⟩
      · exact Or.inl ⟨hc'.trans hc, hfirst⟩
      · refine Or.inr ⟨?_, hnext⟩
        rw [← hc'] at hc
        exact hc
    | .visited c =>
      rw [hwalk] at hstanding
      rcases hstanding with ⟨hc, hlast⟩ | ⟨hc, hnext⟩
      · exact Or.inl ⟨(hlisted c).mpr hc, hlast⟩
      · exact Or.inr ⟨fun heq => hc ((hlisted c).mp heq), hnext⟩

/-- **Every step that spares the walk (proved).** -/
theorem inUseStep_inv {act : InUseAction} (h : ∃ a b, WalkInv s a b) (hspared : WalkSpared s act)
    (hs : inUseStep s act = some s') : ∃ a b, WalkInv s' a b := by
  obtain ⟨a, b, h⟩ := h
  cases act with
  | begin =>
    simp only [inUseStep] at hs
    split at hs <;> cases hs
    next hwalk => exact ⟨_, _, h.begin hwalk⟩
  | visit =>
    simp only [inUseStep] at hs
    split at hs <;> cases hs
    next hwalk => exact h.visit hwalk
  | next =>
    simp only [inUseStep] at hs
    split at hs <;> cases hs
    next hwalk => exact ⟨_, _, h.next hwalk⟩
  | append conn =>
    simp only [inUseStep] at hs
    split at hs <;> cases hs
    next hplace => exact h.append hplace
  | unlink conn =>
    simp only [inUseStep] at hs
    split at hs <;> cases hs
    next hplace => exact h.unlink hplace hspared
  | clear conn =>
    simp only [inUseStep] at hs
    split at hs <;> cases hs
    next hplace => exact ⟨_, _, h.clear hplace hspared⟩
  | recycle conn =>
    simp only [inUseStep] at hs
    split at hs <;> cases hs
    next hplace => exact ⟨_, _, h.recycle hplace hspared⟩

theorem walkInv_new : WalkInv {} [] [] :=
  ⟨DList.represents_empty, fun c => iff_of_false (by simp) (by simp), fun _ _ => rfl, fun c hc => (by cases hc),
    ⟨rfl, rfl⟩, rfl⟩

end Steps

/-! ### The main results -/

/-- **A walk that is spared sees every conn (proved):** in every run in which no step takes away the conn at which the
walk stands, what is in the list all the time is visited exactly once, and no conn is visited that has been
recycled. -/
theorem reachable_walkSound {s : InUse} (h : ReachableVia (enabled inUseStep) WalkSpared {} s) : WalkSound s := by
  obtain ⟨a, b, hinv⟩ := h.invariant (P := fun s => ∃ a b, WalkInv s a b) ⟨[], [], walkInv_new⟩
    fun _ _ _ hinv hspared hs => inUseStep_inv hinv hspared hs
  exact hinv.sound

/-- Of three conns, the walk visits the first and the last; another thread removes the first after its visit but keeps
its pointers until the walk has gone on, and removes the second. -/
theorem reachable_walkSound_removed : ∃ s : InUse, WalkSound s ∧ s.walk = .visiting none ∧
    s.throughout = [3] ∧ s.visits = [3, 1] := by
  have hrun : ∃ s, runFrom (guarded WalkSpared inUseStep) {}
      [.append 1, .append 2, .append 3, .begin, .unlink 2, .clear 2, .recycle 2, .visit, .unlink 1, .next, .clear 1,
        .recycle 1, .visit, .next] = some s ∧
      s.walk = .visiting none ∧ s.throughout = [3] ∧ s.visits = [3, 1] := ⟨_, rfl, rfl, rfl, rfl⟩
  obtain ⟨s, hs, hobs⟩ := hrun
  exact ⟨s, reachable_walkSound (reachableVia_of_runFrom hs), hobs⟩

/-- **A removal ends the walk (proved):** the conn that is being visited is removed, and the one behind it, which stays
in the list, is never visited. -/
theorem walkSound_fails : ¬ ∀ s : InUse, Reachable (enabled inUseStep) {} s → WalkSound s := by
  intro hall
  have hrun : ∃ s, runFrom inUseStep {}
      [.append 1, .append 2, .begin, .visit, .unlink 1, .clear 1, .next] = some s ∧
      s.walk = .visiting none ∧ s.throughout = [2] ∧ s.visits = [1] := ⟨_, rfl, rfl, rfl, rfl⟩
  obtain ⟨s, hs, hwalk, hthroughout, hvisits⟩ := hrun
  have hcount := (hall s (reachable_of_runFrom hs)).all hwalk 2 (by rw [hthroughout]; exact List.mem_cons_self)
  rw [hvisits] at hcount
  cases hcount

end Connio
