import Connio.Lib.SplitRemoval
import Connio.Lib.Transition
import Mathlib.Data.Int.Notation
import Mathlib.Data.List.Nodup

/-!
# Waiting for the conns of a handle to exit

The conns of a handle are in `handle->inUse` from `_ConnAllocEx` to `connFreeEx`, and `handle->inCleanup` counts the
threads of `connFreeEx` that have begun to clean up; `ConnHandleWaitForConnectionsToExit` reads both (`connio.c`).  A
step is one atomic operation, or one hold of a lock.

* `ConnUse`, `FreePoint`, `HandleConns` — the conns of a handle and the threads that free them;
* `ConnMove`, `connMove` — a conn is allocated, or a thread goes on in `connFreeEx`;
* `ExitWait`, `exitWaitStep` — `ConnHandleWaitForConnectionsToExit`, read by read;
* `ExitSystem`, `exitStep` — one wait with the threads that free the conns;
* `reachable_exitSound` — **PROVED**: when the wait returns `TRUE`, all conns are recycled and no thread of `connFreeEx`
  is left.
-/

namespace Connio

open Connio.Lib

/-! ### The conns of a handle -/

/-- Where a conn is. -/
inductive ConnUse where
  | cached
  | inUse
  /-- a thread is in `connFreeEx` and has not given the conn back yet -/
  | freeing
  deriving DecidableEq, Repr

/-- Where a thread is in `connFreeEx`. -/
inductive FreePoint where
  /-- about to increment `handle->inCleanup` -/
  | counting
  /-- about to take the lock in `ConnListRemove` -/
  | removing
  /-- about to clear `conn->list` -/
  | clearing
  /-- about to call `SynchronousConnectEventRemove` -/
  | leaving
  /-- in `ConnRecycle`, about to call `ConnectionClean` -/
  | cleaning
  /-- about to call `ConnectionInit` -/
  | initializing
  /-- about to call `MemPrivatePoolReturnEntry` -/
  | returning
  /-- about to decrement `handle->inCleanup` -/
  | uncounting
  deriving DecidableEq, Repr

/-- A thread in `connFreeEx`. -/
structure FreeThread where
  conn : ℕ
  point : FreePoint := .counting
  deriving DecidableEq, Repr

/-- The conns of a handle. -/
structure HandleConns where
  /-- `handle->inUse` -/
  list : DList ℕ := DList.empty
  use : ℕ → ConnUse := fun _ => .cached
  frees : List FreeThread := []
  inCleanup : ℕ := 0

inductive ConnMove where
  /-- `_ConnAllocEx` -/
  | alloc (conn : ℕ)
  /-- `connFreeEx` is called -/
  | free (conn : ℕ)
  /-- a thread goes on in `connFreeEx` -/
  | go (t : FreeThread)
  deriving DecidableEq, Repr

namespace HandleConns

variable (s : HandleConns)

/-- A thread is at another place. -/
def become (t : FreeThread) (point : FreePoint) : HandleConns :=
  { s with frees := { t with point := point } :: s.frees.erase t }

/-- A conn has another use. -/
def put (conn : ℕ) (u : ConnUse) : HandleConns := { s with use := Function.update s.use conn u }

/-- A thread goes on in `connFreeEx`. -/
def advance (t : FreeThread) : HandleConns :=
  match t.point with
  | .counting => { s.become t .removing with inCleanup := s.inCleanup + 1 }
  | .removing => { s.become t .clearing with list := s.list.unlink t.conn }
  | .clearing => { s.become t .leaving with list := s.list.clear t.conn }
  | .leaving => s.become t .cleaning
  | .cleaning => s.become t .initializing
  | .initializing => s.become t .returning
  | .returning => (s.become t .uncounting).put t.conn .cached
  | .uncounting => { s with frees := s.frees.erase t, inCleanup := s.inCleanup - 1 }

end HandleConns

/-- **One step** of the threads that allocate and free; `none` when the move is not enabled. -/
def connMove (s : HandleConns) : ConnMove → Option HandleConns
  | .alloc conn =>
    if s.use conn = .cached then some { s.put conn .inUse with list := s.list.append conn } else none
  | .free conn =>
    if s.use conn = .inUse then some { s.put conn .freeing with frees := { conn := conn } :: s.frees } else none
  | .go t => if t ∈ s.frees then some (s.advance t) else none

/-! ### What holds of them -/

/-- The thread has not removed its conn from the list yet. -/
def FreePoint.Listed (p : FreePoint) : Prop := p = .counting ∨ p = .removing

/-- The conns that threads of `connFreeEx` still have. -/
def freedConns (frees : List FreeThread) : List ℕ :=
  (frees.filter fun t => t.point ≠ .uncounting).map FreeThread.conn

/-- The threads that have been counted. -/
def countedFrees (frees : List FreeThread) : ℕ := frees.countP fun t => t.point ≠ .counting

/-- **The list has what is in use,** and what a thread is about to remove; the counter counts the threads. -/
structure ConnsInv (s : HandleConns) (l : List ℕ) : Prop where
  represents : s.list.Represents l
  inUse : ∀ c, s.use c = .inUse → c ∈ l
  member : ∀ c ∈ l, s.use c = .inUse ∨ ∃ t ∈ s.frees, t.conn = c ∧ t.point.Listed
  listed : ∀ t ∈ s.frees, t.point.Listed → t.conn ∈ l
  freeing : ∀ c, s.use c = .freeing ↔ c ∈ freedConns s.frees
  alone : (freedConns s.frees).Nodup
  count : s.inCleanup = countedFrees s.frees

section Moves

variable {s s' : HandleConns} {l : List ℕ} {t : FreeThread} {conn : ℕ}

theorem connsInv_new : ConnsInv {} [] :=
  ⟨DList.represents_empty, fun c hc => (by cases hc), fun c hc => (by cases hc), fun t ht => (by cases ht),
    fun c => iff_of_false (by simp) (by simp [freedConns]), List.nodup_nil, rfl⟩

/-- A thread that has not removed its conn has not given it back. -/
theorem mem_freedConns {x : FreeThread} {rest : List FreeThread} (hx : x ∈ rest) (hp : x.point.Listed) :
    x.conn ∈ freedConns rest := by
  refine List.mem_map.mpr ⟨x, List.mem_filter.mpr ⟨hx, ?_⟩, rfl⟩
  rcases hp with hp | hp <;> rw [hp] <;> rfl

/-- The order of the threads does not matter. -/
theorem ConnsInv.perm {frees : List FreeThread} (h : ConnsInv s l) (hperm : s.frees.Perm frees) :
    ConnsInv { s with frees := frees } l := by
  have hconns : (freedConns s.frees).Perm (freedConns frees) := (hperm.filter _).map _
  refine ⟨h.represents, h.inUse, fun c hc => ?_, fun t ht => h.listed t (hperm.mem_iff.mpr ht), fun c => ?_,
    hconns.nodup_iff.mp h.alone, h.count.trans (hperm.countP_eq _)⟩
  · rcases h.member c hc with huse | ⟨t, ht, heq⟩
    · exact Or.inl huse
    · exact Or.inr ⟨t, hperm.mem_iff.mp ht, heq⟩
  · rw [h.freeing c]
    exact hconns.mem_iff

/-- A conn is allocated. -/
theorem ConnsInv.alloc (h : ConnsInv s l) (huse : s.use conn = .cached) :
    ConnsInv { s.put conn .inUse with list := s.list.append conn } (l ++ [conn]) := by
  have hnot : conn ∉ freedConns s.frees := fun hmem => by
    rw [← h.freeing, huse] at hmem
    cases hmem
  have hout : conn ∉ l := by
    intro hmem
    rcases h.member conn hmem with hin | ⟨t, ht, hconn, hlisted⟩
    · rw [huse] at hin
      cases hin
    · exact hnot (hconn ▸ mem_freedConns ht hlisted)
  refine ⟨DList.represents_append h.represents hout, fun c hc => ?_, fun c hc => ?_, fun t ht hp =>
    List.mem_append_left _ (h.listed t ht hp), fun c => ?_, h.alone, h.count⟩
  · by_cases hcc : c = conn
    · simp [hcc]
    · have hold : s.use c = .inUse := (Function.update_of_ne hcc _ _).symm.trans hc
      exact List.mem_append_left _ (h.inUse c hold)
  · rcases List.mem_append.mp hc with hc | hc
    · have hcc : c ≠ conn := fun heq => hout (heq ▸ hc)
      rcases h.member c hc with hin | hthread
      · exact Or.inl ((Function.update_of_ne hcc _ _).trans hin)
      · exact Or.inr hthread
    · rw [List.mem_singleton.mp hc]
      exact Or.inl (Function.update_self _ _ _)
  · show Function.update s.use conn .inUse c = .freeing ↔ _
    by_cases hcc : c = conn
    · rw [hcc, Function.update_self]
      exact iff_of_false (by decide) hnot
    · rw [Function.update_of_ne hcc]
      exact h.freeing c

/-- `connFreeEx` is called. -/
theorem ConnsInv.free (h : ConnsInv s l) (huse : s.use conn = .inUse) :
    ConnsInv { s.put conn .freeing with frees := { conn := conn } :: s.frees } l := by
  have hnot : conn ∉ freedConns s.frees := fun hmem => by
    rw [← h.freeing, huse] at hmem
    cases hmem
  refine ⟨h.represents, fun c hc => ?_, fun c hc => ?_, fun t ht hp => ?_, fun c => ?_,
    List.nodup_cons.mpr ⟨hnot, h.alone⟩, h.count⟩
  · by_cases hcc : c = conn
    · exact hcc ▸ h.inUse conn huse
    · exact h.inUse c ((Function.update_of_ne hcc _ _).symm.trans hc)
  · by_cases hcc : c = conn
    · exact Or.inr ⟨_, List.mem_cons_self, hcc.symm, Or.inl rfl⟩
    · rcases h.member c hc with hin | ⟨t, ht, heq⟩
      · exact Or.inl ((Function.update_of_ne hcc _ _).trans hin)
      · exact Or.inr ⟨t, List.mem_cons_of_mem _ ht, heq⟩
  · rcases List.mem_cons.mp ht with heq | ht
    · rw [heq]
      exact h.inUse conn huse
    · exact h.listed t ht hp
  · show Function.update s.use conn .freeing c = .freeing ↔ c ∈ conn :: freedConns s.frees
    by_cases hcc : c = conn
    · rw [hcc, Function.update_self]
      exact iff_of_true rfl List.mem_cons_self
    · rw [Function.update_of_ne hcc, h.freeing c]
      simp [hcc]

theorem freedConns_cons (t : FreeThread) (frees : List FreeThread) :
    freedConns (t :: frees) = if t.point ≠ .uncounting then t.conn :: freedConns frees else freedConns frees := by
  by_cases hp : t.point = .uncounting <;> simp [freedConns, hp]

theorem countedFrees_cons (t : FreeThread) (frees : List FreeThread) :
    countedFrees (t :: frees) = countedFrees frees + if t.point ≠ .counting then 1 else 0 := by
  unfold countedFrees
  rw [List.countP_cons]
  simp

/-- A thread goes on with the conn that it has, and the list stays. -/
theorem ConnsInv.stay {rest : List FreeThread} (h : ConnsInv { s with frees := t :: rest } l) {point : FreePoint}
    {list : DList ℕ} {inCleanup : ℕ} (ht : t.point ≠ .uncounting) (hpoint : point ≠ .uncounting)
    (hlisted : point.Listed ↔ t.point.Listed) (hrep : list.Represents l)
    (hcount : inCleanup = countedFrees ({ t with point := point } :: rest)) :
    ConnsInv { s with list := list, frees := { t with point := point } :: rest, inCleanup := inCleanup } l := by
  have hconns : freedConns ({ t with point := point } :: rest) = freedConns (t :: rest) := by
    rw [freedConns_cons, freedConns_cons, if_pos ht, if_pos hpoint]
  refine ⟨hrep, h.inUse, fun c hc => ?_, fun x hx hp => ?_, fun c => ?_, ?_, hcount⟩
  · rcases h.member c hc with hin | ⟨x, hx, hconn, hp⟩
    · exact Or.inl hin
    · rcases List.mem_cons.mp hx with heq | hx
      · rw [heq] at hconn hp
        exact Or.inr ⟨_, List.mem_cons_self, hconn, hlisted.mpr hp⟩
      · exact Or.inr ⟨x, List.mem_cons_of_mem _ hx, hconn, hp⟩
  · rcases List.mem_cons.mp hx with heq | hx
    · rw [heq] at hp ⊢
      exact h.listed t List.mem_cons_self (hlisted.mp hp)
    · exact h.listed x (List.mem_cons_of_mem _ hx) hp
  · show s.use c = .freeing ↔ c ∈ freedConns ({ t with point := point } :: rest)
    rw [hconns]
    exact h.freeing c
  · show (freedConns ({ t with point := point } :: rest)).Nodup
    rw [hconns]
    exact h.alone

/-- The conn of a thread is being freed until the thread has given it back. -/
theorem ConnsInv.freeing_head {rest : List FreeThread} (h : ConnsInv { s with frees := t :: rest } l)
    (ht : t.point ≠ .uncounting) : s.use t.conn = .freeing := by
  refine (h.freeing t.conn).mpr ?_
  show t.conn ∈ freedConns (t :: rest)
  rw [freedConns_cons, if_pos ht]
  exact List.mem_cons_self

/-- A thread removes its conn from the list. -/
theorem ConnsInv.remove {rest : List FreeThread} (h : ConnsInv { s with frees := t :: rest } l)
    (ht : t.point = .removing) :
    ConnsInv { s with list := s.list.unlink t.conn, frees := { t with point := .clearing } :: rest }
      (l.erase t.conn) := by
  have hne : t.point ≠ .uncounting := by rw [ht]; decide
  have hin : t.conn ∈ l := h.listed t List.mem_cons_self (Or.inr ht)
  have halone := h.alone
  have hold : freedConns (t :: rest) = t.conn :: freedConns rest := by rw [freedConns_cons, if_pos hne]
  have hconns : freedConns ({ t with point := .clearing } :: rest) = t.conn :: freedConns rest := by
    rw [freedConns_cons, if_pos (by simp)]
  have hother : ∀ x ∈ rest, x.point.Listed → x.conn ≠ t.conn := by
    intro x hx hp heq
    have hmem : x.conn ∈ freedConns rest := mem_freedConns hx hp
    have hnodup : (t.conn :: freedConns rest).Nodup := hold ▸ halone
    exact (List.nodup_cons.mp hnodup).1 (heq ▸ hmem)
  have huse : s.use t.conn = .freeing := h.freeing_head (by rw [ht]; decide)
  refine ⟨DList.represents_unlink h.represents hin, fun c hc => ?_, fun c hc => ?_, fun x hx hp => ?_, fun c => ?_, ?_,
    ?_⟩
  · refine (List.mem_erase_of_ne fun heq => ?_).mpr (h.inUse c hc)
    have hc' : s.use c = .inUse := hc
    rw [heq, huse] at hc'
    cases hc'
  · obtain ⟨hcc, hc⟩ := h.represents.nodup.mem_erase_iff.mp hc
    rcases h.member c hc with hin | ⟨x, hx, hconn, hp⟩
    · exact Or.inl hin
    · rcases List.mem_cons.mp hx with heq | hx
      · exact absurd (by rw [← hconn, heq]) hcc
      · exact Or.inr ⟨x, List.mem_cons_of_mem _ hx, hconn, hp⟩
  · rcases List.mem_cons.mp hx with heq | hx
    · rw [heq] at hp
      rcases hp with hp | hp <;> cases hp
    · exact (List.mem_erase_of_ne (hother x hx hp)).mpr (h.listed x (List.mem_cons_of_mem _ hx) hp)
  · show s.use c = .freeing ↔ c ∈ freedConns ({ t with point := .clearing } :: rest)
    rw [hconns, ← hold]
    exact h.freeing c
  · show (freedConns ({ t with point := .clearing } :: rest)).Nodup
    rw [hconns, ← hold]
    exact halone
  · have hcount : s.inCleanup = countedFrees (t :: rest) := h.count
    show s.inCleanup = countedFrees ({ t with point := .clearing } :: rest)
    rw [hcount, countedFrees_cons, countedFrees_cons, ht]
    rfl

/-- A thread gives its conn back. -/
theorem ConnsInv.giveBack {rest : List FreeThread} (h : ConnsInv { s with frees := t :: rest } l)
    (ht : t.point = .returning) :
    ConnsInv { s.put t.conn .cached with frees := { t with point := .uncounting } :: rest } l := by
  have hold : freedConns (t :: rest) = t.conn :: freedConns rest := by
    rw [freedConns_cons, if_pos (by rw [ht]; decide)]
  have hconns : freedConns ({ t with point := .uncounting } :: rest) = freedConns rest := by
    rw [freedConns_cons, if_neg (by simp)]
  have halone : (t.conn :: freedConns rest).Nodup := hold ▸ h.alone
  have huse : s.use t.conn = .freeing := h.freeing_head (by rw [ht]; decide)
  refine ⟨h.represents, fun c hc => ?_, fun c hc => ?_, fun x hx hp => ?_, fun c => ?_, ?_, ?_⟩
  · have hcc : c ≠ t.conn := fun heq => by
      have hc' : Function.update s.use t.conn .cached c = .inUse := hc
      rw [heq, Function.update_self] at hc'
      cases hc'
    exact h.inUse c ((Function.update_of_ne hcc _ _).symm.trans hc)
  · rcases h.member c hc with hin | ⟨x, hx, hconn, hp⟩
    · have hcc : c ≠ t.conn := fun heq => by
        have hin' : s.use c = .inUse := hin
        rw [heq, huse] at hin'
        cases hin'
      exact Or.inl ((Function.update_of_ne hcc _ _).trans hin)
    · rcases List.mem_cons.mp hx with heq | hx
      · rw [heq, ht] at hp
        rcases hp with hp | hp <;> cases hp
      · exact Or.inr ⟨x, List.mem_cons_of_mem _ hx, hconn, hp⟩
  · rcases List.mem_cons.mp hx with heq | hx
    · rw [heq] at hp
      rcases hp with hp | hp <;> cases hp
    · exact h.listed x (List.mem_cons_of_mem _ hx) hp
  · show Function.update s.use t.conn .cached c = .freeing ↔ c ∈ freedConns ({ t with point := .uncounting } :: rest)
    rw [hconns]
    by_cases hcc : c = t.conn
    · rw [hcc, Function.update_self]
      exact iff_of_false (by decide) (List.nodup_cons.mp halone).1
    · have hfreeing := h.freeing c
      have hold' : freedConns { s with frees := t :: rest }.frees = t.conn :: freedConns rest := hold
      rw [hold'] at hfreeing
      rw [Function.update_of_ne hcc]
      exact hfreeing.trans (by simp [hcc])
  · show (freedConns ({ t with point := .uncounting } :: rest)).Nodup
    rw [hconns]
    exact (List.nodup_cons.mp halone).2
  · have hcount : s.inCleanup = countedFrees (t :: rest) := h.count
    show s.inCleanup = countedFrees ({ t with point := .uncounting } :: rest)
    rw [hcount, countedFrees_cons, countedFrees_cons, ht]
    rfl

/-- A thread leaves `connFreeEx`. -/
theorem ConnsInv.leave {rest : List FreeThread} (h : ConnsInv { s with frees := t :: rest } l)
    (ht : t.point = .uncounting) : ConnsInv { s with frees := rest, inCleanup := s.inCleanup - 1 } l := by
  have hold : freedConns (t :: rest) = freedConns rest := by
    rw [freedConns_cons, if_neg (by simp [ht])]
  refine ⟨h.represents, h.inUse, fun c hc => ?_, fun x hx hp => h.listed x (List.mem_cons_of_mem _ hx) hp,
    fun c => ?_, ?_, ?_⟩
  · rcases h.member c hc with hin | ⟨x, hx, hconn, hp⟩
    · exact Or.inl hin
    · rcases List.mem_cons.mp hx with heq | hx
      · rw [heq, ht] at hp
        rcases hp with hp | hp <;> cases hp
      · exact Or.inr ⟨x, hx, hconn, hp⟩
  · show s.use c = .freeing ↔ c ∈ freedConns rest
    rw [← hold]
    exact h.freeing c
  · show (freedConns rest).Nodup
    rw [← hold]
    exact h.alone
  · have hcount : s.inCleanup = countedFrees (t :: rest) := h.count
    show s.inCleanup - 1 = countedFrees rest
    rw [hcount, countedFrees_cons, ht]
    rfl

/-- The conn of a thread that has removed it is not in the list. -/
theorem ConnsInv.not_mem {rest : List FreeThread} (h : ConnsInv { s with frees := t :: rest } l)
    (ht : t.point ≠ .uncounting) (hlisted : ¬ t.point.Listed) : t.conn ∉ l := by
  have hold : freedConns (t :: rest) = t.conn :: freedConns rest := by rw [freedConns_cons, if_pos ht]
  have halone : (t.conn :: freedConns rest).Nodup := hold ▸ h.alone
  intro hmem
  rcases h.member _ hmem with hin | ⟨x, hx, hconn, hp⟩
  · have huse : s.use t.conn = .freeing := h.freeing_head ht
    have hin' : s.use t.conn = .inUse := hin
    rw [huse] at hin'
    cases hin'
  · rcases List.mem_cons.mp hx with heq | hx
    · exact hlisted (heq ▸ hp)
    · exact (List.nodup_cons.mp halone).1 (hconn ▸ mem_freedConns hx hp)

/-- A thread goes on in `connFreeEx`. -/
theorem ConnsInv.advance (h : ConnsInv s l) (ht : t ∈ s.frees) : ∃ l', l' ⊆ l ∧ ConnsInv (s.advance t) l' := by
  have hfront := h.perm (List.perm_cons_erase ht)
  have hcount : s.inCleanup = countedFrees (t :: s.frees.erase t) := hfront.count
  have hsame : ∀ point : FreePoint, t.point ≠ .counting → point ≠ .counting →
      s.inCleanup = countedFrees ({ t with point := point } :: s.frees.erase t) := by
    intro point hp hpoint
    rw [hcount, countedFrees_cons, countedFrees_cons, if_pos hp, if_pos hpoint]
  have hlater : ∀ point : FreePoint, t.point ≠ .uncounting → t.point ≠ .counting → ¬ t.point.Listed →
      point ≠ .uncounting → point ≠ .counting → ¬ point.Listed → ConnsInv (s.become t point) l := by
    intro point hp hp' hnot hpoint hpoint' hnot'
    exact hfront.stay hp hpoint (iff_of_false hnot' hnot) h.represents (hsame point hp' hpoint')
  unfold HandleConns.advance
  cases hp : t.point with
  | counting =>
    refine ⟨l, fun _ hc => hc, hfront.stay (by simp [hp]) (by simp) ?_ h.represents ?_⟩
    · exact iff_of_true (Or.inr rfl) (Or.inl hp)
    · rw [hcount, countedFrees_cons, countedFrees_cons, hp]
      rfl
  | removing => exact ⟨l.erase t.conn, List.erase_subset, hfront.remove hp⟩
  | clearing =>
    have hout : t.conn ∉ l := hfront.not_mem (by simp [hp]) (by simp [FreePoint.Listed, hp])
    refine ⟨l, fun _ hc => hc, hfront.stay (by simp [hp]) (by simp) ?_
      ((DList.represents_clear hout).mpr h.represents) (hsame _ (by simp [hp]) (by simp))⟩
    exact iff_of_false (by simp [FreePoint.Listed]) (by simp [FreePoint.Listed, hp])
  | leaving | cleaning | initializing =>
    refine ⟨l, fun _ hc => hc, hlater _ ?_ ?_ ?_ ?_ ?_ ?_⟩
    all_goals simp [FreePoint.Listed, hp]
  | returning => exact ⟨l, fun _ hc => hc, hfront.giveBack hp⟩
  | uncounting => exact ⟨l, fun _ hc => hc, hfront.leave hp⟩

/-- **Every move (proved):** only `_ConnAllocEx` brings a conn into the list. -/
theorem connMove_inv {m : ConnMove} (h : ConnsInv s l) (hs : connMove s m = some s') :
    ∃ l', ConnsInv s' l' ∧ ((∀ conn, m ≠ .alloc conn) → l' ⊆ l) := by
  cases m with
  | alloc conn =>
    simp only [connMove] at hs
    split at hs <;> cases hs
    next huse => exact ⟨_, h.alloc huse, fun hm => absurd rfl (hm conn)⟩
  | free conn =>
    simp only [connMove] at hs
    split at hs <;> cases hs
    next huse => exact ⟨_, h.free huse, fun _ _ hc => hc⟩
  | go t =>
    simp only [connMove] at hs
    split at hs <;> cases hs
    next ht =>
      obtain ⟨l', hsub, hinv⟩ := h.advance ht
      exact ⟨l', hinv, fun _ => hsub⟩

/-- **When the list is empty and the counter is 0, nobody is in `connFreeEx` (proved).** -/
theorem ConnsInv.nobody (h : ConnsInv s []) (hcount : s.inCleanup = 0) :
    s.frees = [] ∧ ∀ c, s.use c = .cached := by
  have hnone : s.frees = [] := by
    have hall := h.count
    rw [hcount] at hall
    have hcounted := List.countP_eq_zero.mp hall.symm
    refine List.eq_nil_iff_forall_not_mem.mpr fun t ht => ?_
    have hp : t.point = .counting := by simpa using hcounted t ht
    exact List.not_mem_nil (h.listed t ht (Or.inl hp))
  refine ⟨hnone, fun c => ?_⟩
  cases huse : s.use c with
  | cached => rfl
  | inUse => exact absurd (h.inUse c huse) List.not_mem_nil
  | freeing =>
    have hmem := (h.freeing c).mp huse
    rw [hnone] at hmem
    cases hmem

end Moves

/-! ### The wait -/

/-- `translateShutdownTimeout`: seconds, or -1 for a wait without an end. -/
def translateShutdownTimeout (timeout : ℤ) : ℤ :=
  if timeout > 0 then if timeout > 1000 then timeout / 1000 else 1
  else if timeout = -3 then 0
  else if timeout = -2 then -1
  else 10

/-- Where the thread is that waits. -/
inductive WaitPoint where
  /-- about to read `handle->inUse.head` -/
  | looking
  /-- the list was empty: about to read `handle->inCleanup` -/
  | sawEmpty
  /-- somebody is left: about to wait again, or to give up -/
  | sawSome
  | returned (result : Bool)
  deriving DecidableEq, Repr

/-- A thread in `ConnHandleWaitForConnectionsToExit`. -/
structure ExitWait where
  timeout : ℤ
  i : ℕ := 0
  point : WaitPoint := .looking
  deriving DecidableEq, Repr

/-- `ConnHandleWaitForConnectionsToExit` is called. -/
def exitWait (timeout : ℤ) : ExitWait := { timeout := translateShutdownTimeout timeout }

/-- It goes on. -/
def exitWaitStep (s : HandleConns) (w : ExitWait) : Option ExitWait :=
  match w.point with
  | .looking => some { w with point := if s.list.head = none then .sawEmpty else .sawSome }
  | .sawEmpty => some { w with point := if s.inCleanup = 0 then .returned true else .sawSome }
  | .sawSome =>
    if w.timeout > -1 ∧ w.i ≥ w.timeout then some { w with point := .returned false }
    else some { w with i := w.i + 1, point := .looking }
  | .returned _ => none

/-- **What the thread has seen is so:** the list is empty, and at the end nobody is in `connFreeEx`. -/
def ExitWait.Seen (w : ExitWait) (s : HandleConns) (l : List ℕ) : Prop :=
  (w.point = .sawEmpty ∨ w.point = .returned true → l = []) ∧
    (w.point = .returned true → s.frees = [] ∧ ∀ c, s.use c = .cached)

section Waits

variable {s s' : HandleConns} {l : List ℕ} {w w' : ExitWait}

theorem exitWait_seen (timeout : ℤ) : (exitWait timeout).Seen s l :=
  ⟨fun h => (by rcases h with h | h <;> cases h), fun h => by cases h⟩

theorem ExitWait.Seen.step (h : w.Seen s l) (hinv : ConnsInv s l) (hs : exitWaitStep s w = some w') : w'.Seen s l := by
  unfold exitWaitStep at hs
  cases hp : w.point with
  | looking =>
    rw [hp] at hs
    cases hs
    by_cases hhead : s.list.head = none
    · have hnil : l = [] := by
        rw [hinv.represents.head_eq] at hhead
        exact List.head?_eq_none_iff.mp hhead
      exact ⟨fun _ => hnil, fun hr => by simp [hhead] at hr⟩
    · refine ⟨fun hr => ?_, fun hr => by simp [hhead] at hr⟩
      simp [hhead] at hr
  | sawEmpty =>
    rw [hp] at hs
    cases hs
    have hnil : l = [] := h.1 (Or.inl hp)
    refine ⟨fun _ => hnil, fun hr => ?_⟩
    by_cases hcount : s.inCleanup = 0
    · exact (hnil ▸ hinv : ConnsInv s []).nobody hcount
    · simp [hcount] at hr
  | sawSome =>
    rw [hp] at hs
    simp only at hs
    split at hs <;> cases hs
    all_goals exact ⟨fun hr => (by simp at hr), fun hr => by simp at hr⟩
  | returned result =>
    rw [hp] at hs
    cases hs

/-- **How a wait returns (proved).** -/
theorem exitWaitStep_returned (hs : exitWaitStep s w = some w') :
    w'.timeout = w.timeout ∧ (w'.point = .returned true → w.point = .sawEmpty ∧ s.inCleanup = 0) ∧
      (w'.point = .returned false → w.timeout > -1) := by
  unfold exitWaitStep at hs
  cases hp : w.point with
  | looking =>
    rw [hp] at hs
    cases hs
    by_cases hhead : s.list.head = none <;> simp [hhead]
  | sawEmpty =>
    rw [hp] at hs
    cases hs
    by_cases hcount : s.inCleanup = 0 <;> simp [hcount]
  | sawSome =>
    rw [hp] at hs
    simp only at hs
    split at hs <;> cases hs
    next hover => exact ⟨rfl, fun hr => (by cases hr), fun _ => hover.1⟩
    · exact ⟨rfl, fun hr => (by cases hr), fun hr => by cases hr⟩
  | returned result =>
    rw [hp] at hs
    cases hs

/-- A move that allocates no conn does not change what the thread has seen. -/
theorem ExitWait.Seen.move {m : ConnMove} (h : w.Seen s l) (hinv : ConnsInv s l) (hm : ∀ conn, m ≠ .alloc conn)
    (hs : connMove s m = some s') : w.point ≠ .returned true ∧ ∃ l', ConnsInv s' l' ∧ w.Seen s' l' := by
  have hgoing : w.point ≠ .returned true := by
    intro hr
    obtain ⟨hfrees, hcached⟩ := h.2 hr
    cases m with
    | alloc conn => exact hm conn rfl
    | free conn => simp [connMove, hcached conn] at hs
    | go t => simp [connMove, hfrees] at hs
  obtain ⟨l', hinv', hsub⟩ := connMove_inv hinv hs
  refine ⟨hgoing, l', hinv', fun hp => ?_, fun hp => absurd hp hgoing⟩
  have hnil := h.1 hp
  exact List.eq_nil_of_subset_nil (hnil ▸ hsub hm)

end Waits

/-! ### One wait and the threads that free the conns -/

structure ExitSystem where
  conns : HandleConns := {}
  /-- the thread in `ConnHandleWaitForConnectionsToExit` -/
  wait : Option ExitWait := none
  /-- a thread has gone on in `connFreeEx` after the wait had returned `TRUE`.  No modelled function reads it. -/
  usedAfter : Bool := false

/-- The wait has returned `TRUE`. -/
def ExitSystem.exited (s : ExitSystem) : Bool := s.wait.any fun w => w.point = .returned true

inductive ExitAction where
  | move (m : ConnMove)
  /-- `ConnHandleWaitForConnectionsToExit` is called -/
  | call (timeout : ℤ)
  /-- it goes on -/
  | go
  deriving DecidableEq, Repr

/-- **One step;** no conn is allocated once the wait has begun. -/
def exitStep (s : ExitSystem) : ExitAction → Option ExitSystem
  | .move (.alloc conn) =>
    if s.wait = none then (connMove s.conns (.alloc conn)).map fun conns => { s with conns := conns } else none
  | .move m =>
    (connMove s.conns m).map fun conns => { s with conns := conns, usedAfter := s.usedAfter || s.exited }
  | .call timeout => if s.wait = none then some { s with wait := some (exitWait timeout) } else none
  | .go => s.wait.bind fun w => (exitWaitStep s.conns w).map fun w' => { s with wait := some w' }

/-- **The wait is sound:** when it has returned `TRUE`, each conn has left the list and is recycled, and nobody is in
`connFreeEx`; no thread of `connFreeEx` has used the handle since. -/
structure ExitSound (s : ExitSystem) : Prop where
  removed : s.exited = true → s.conns.list.toList = []
  recycled : s.exited = true → ∀ conn, s.conns.use conn = .cached
  nobody : s.exited = true → s.conns.frees = []
  unused : s.usedAfter = false

/-- What holds in every state. -/
structure ExitInv (s : ExitSystem) (l : List ℕ) : Prop where
  conns : ConnsInv s.conns l
  seen : ∀ w, s.wait = some w → w.Seen s.conns l
  unused : s.usedAfter = false

section System

variable {s s' : ExitSystem} {l : List ℕ}

theorem ExitInv.sound (h : ExitInv s l) : ExitSound s := by
  have hexit : s.exited = true → ∃ w, s.wait = some w ∧ w.point = .returned true := by
    intro hexited
    unfold ExitSystem.exited at hexited
    cases hwait : s.wait with
    | none =>
      rw [hwait] at hexited
      cases hexited
    | some w =>
      rw [hwait] at hexited
      exact ⟨w, rfl, of_decide_eq_true hexited⟩
  refine ⟨fun hexited => ?_, fun hexited => ?_, fun hexited => ?_, h.unused⟩
  · obtain ⟨w, hwait, hp⟩ := hexit hexited
    rw [DList.toList_represents h.conns.represents]
    exact (h.seen w hwait).1 (Or.inr hp)
  · obtain ⟨w, hwait, hp⟩ := hexit hexited
    exact ((h.seen w hwait).2 hp).2
  · obtain ⟨w, hwait, hp⟩ := hexit hexited
    exact ((h.seen w hwait).2 hp).1

/-- A thread of `connFreeEx` goes on. -/
theorem ExitInv.move (h : ExitInv s l) {m : ConnMove} {conns : HandleConns} (hm : ∀ conn, m ≠ .alloc conn)
    (hs : connMove s.conns m = some conns) :
    ∃ l', ExitInv { s with conns := conns, usedAfter := s.usedAfter || s.exited } l' := by
  cases hwait : s.wait with
  | none =>
    obtain ⟨l', hinv, _⟩ := connMove_inv h.conns hs
    refine ⟨l', hinv, fun w hw => ?_, ?_⟩
    · cases hw
    · simp [ExitSystem.exited, h.unused, hwait]
  | some w =>
    obtain ⟨hgoing, l', hinv, hseen⟩ := (h.seen w hwait).move h.conns hm hs
    refine ⟨l', hinv, fun w' hw' => ?_, ?_⟩
    · cases hw'
      exact hseen
    · simp [ExitSystem.exited, hwait, h.unused, hgoing]

/-- **Every step (proved).** -/
theorem exitStep_inv {a : ExitAction} (h : ∃ l, ExitInv s l) (hs : exitStep s a = some s') : ∃ l, ExitInv s' l := by
  obtain ⟨l, h⟩ := h
  cases a with
  | move m =>
    cases m with
    | alloc conn =>
      simp only [exitStep] at hs
      split at hs
      next hwait =>
        obtain ⟨conns, hmove, rfl⟩ := Option.map_eq_some_iff.mp hs
        obtain ⟨l', hinv, _⟩ := connMove_inv h.conns hmove
        exact ⟨l', hinv, fun w hw => absurd (hwait.symm.trans hw) (by simp), h.unused⟩
      · cases hs
    | free conn =>
      obtain ⟨conns, hmove, rfl⟩ := Option.map_eq_some_iff.mp hs
      exact h.move (by simp) hmove
    | go t =>
      obtain ⟨conns, hmove, rfl⟩ := Option.map_eq_some_iff.mp hs
      exact h.move (by simp) hmove
  | call timeout =>
    simp only [exitStep] at hs
    split at hs <;> cases hs
    refine ⟨l, h.conns, fun w hw => ?_, h.unused⟩
    cases hw
    exact exitWait_seen timeout
  | go =>
    obtain ⟨w, hwait, hgo⟩ := Option.bind_eq_some_iff.mp hs
    obtain ⟨w', hstep, rfl⟩ := Option.map_eq_some_iff.mp hgo
    refine ⟨l, h.conns, fun x hx => ?_, h.unused⟩
    cases hx
    exact (h.seen w hwait).step h.conns hstep

end System

/-! ### The main result -/

/-- **The wait for connections is sound (proved):** in every run of one wait with any number of threads in
`connFreeEx`. -/
theorem reachable_exitSound {s : ExitSystem} (h : Reachable (enabled exitStep) {} s) : ExitSound s := by
  obtain ⟨l, hinv⟩ := h.invariant (P := fun s => ∃ l, ExitInv s l)
    ⟨[], connsInv_new, fun w hw => (by cases hw), rfl⟩ fun _ _ _ hinv _ hs => exitStep_inv hinv hs
  exact hinv.sound

/-- The thread that frees `conn` goes on from each of these points. -/
def freeRun (conn : ℕ) (points : List FreePoint) : List ExitAction := points.map fun p => .move (.go ⟨conn, p⟩)

/-- Two conns are freed while the wait goes on. -/
def exitRun : List ExitAction :=
  [.move (.alloc 1), .move (.alloc 2), .move (.free 1), .call (-2), .go, .go, .move (.free 2)] ++
  freeRun 1 [.counting, .removing] ++ freeRun 2 [.counting, .removing] ++ [.go, .go, .go] ++
  freeRun 1 [.clearing, .leaving, .cleaning, .initializing, .returning, .uncounting] ++ [.go, .go, .go] ++
  freeRun 2 [.clearing, .leaving, .cleaning, .initializing, .returning, .uncounting] ++ [.go, .go]

/-- The wait sees the list empty while the second is still being recycled, waits on, and returns. -/
theorem reachable_exitSound_freed : ∃ s : ExitSystem, ExitSound s ∧ s.exited = true := by
  have hrun : (runFrom exitStep {} exitRun).map ExitSystem.exited = some true := by
    decide +kernel
  obtain ⟨s, hs, hexited⟩ := Option.map_eq_some_iff.mp hrun
  exact ⟨s, reachable_exitSound (reachable_of_runFrom hs), hexited⟩

end Connio
