import Connio.Lib.SplitRemoval
import Connio.ListenerCalls
import Mathlib.Data.List.TakeWhile

/-!
# The sweep over the listeners of a handle

`ConnAListenerStatusEx` with `shuttingdown`, `ConnListenerFree` and `ConnAListenerWaitForShutdownEx` (`connio.c`), with
the pointers of the records: the loop frees members of the list that it walks.

* `HandleListeners` — the list of a handle, well formed;
* `SweepHeap`, `connListenerFree`, `statusLoop`, `connAListenerStatusEx` — the loop, pointer by pointer;
* `statusLoop_spec` — **PROVED**: it ends at the first record that it frees;
* `status_refines` — **PROVED**: it is the function of `ListenerCalls`;
* `SweepExact`, `SweepsSound` — what one sweep owes, and what the wait owes;
* `sweepExact_iff`, `sweepsSound_iff` — **PROVED**: they owe it only where there is nothing to free.
-/

namespace Connio

open Connio.Lib

/-! ### The list -/

/-- The listeners of a handle, which are in `list`. -/
structure HandleListeners where
  /-- `flags.fixed & CONN_HANDLE_ASYNC_ENABLED` -/
  async : Bool
  /-- `listener.head`, `listener.tail`, and the links of the records -/
  links : DList ℕ
  record : ℕ → ConnListenerPriv
  list : List ℕ
  formed : links.Represents list
  /-- `ConnAAddListenerEx` adds listeners to an asynchronous handle only -/
  enabled : list ≠ [] → async = true

/-- What a sweep does to the list. -/
structure SweepHeap where
  links : DList ℕ
  /-- the records that it has freed -/
  freed : List ℕ := []
  /-- it has read one of them -/
  usedFreed : Bool := false

namespace SweepHeap

variable (t : SweepHeap)

/-- `ConnListenerFree` -/
def connListenerFree (l : ℕ) : SweepHeap := { t with links := t.links.remove l, freed := l :: t.freed }

/-- `l->next`; the memory of a freed record keeps what it was left with. -/
def readNext (l : ℕ) : Option ℕ × SweepHeap :=
  (t.links.next l, { t with usedFreed := t.usedFreed || decide (l ∈ t.freed) })

end SweepHeap

namespace HandleListeners

variable (h : HandleListeners)

/-- The listeners without their links. -/
def managed : ManagedListeners := { record := h.record, list := h.list }

/-- The loop of `ConnAListenerStatusEx` from `l` on; `none` when there is no fuel left. -/
def statusLoop (which : ℕ) (only : Option ℕ) (shuttingdown : Bool) :
    ℕ → SweepHeap → Option ℕ → ℕ → Option (ℕ × SweepHeap)
  | _, t, none, c => some (c, t)
  | 0, _, some _, _ => none
  | fuel + 1, t, some l, c =>
    if !h.managed.selected which only l then
      let (next, t) := t.readNext l
      statusLoop which only shuttingdown fuel t next c
    else if shuttingdown && (h.record l).conn.isNone then
      -- `continue` reads the record that has been freed
      let (next, t) := (t.connListenerFree l).readNext l
      statusLoop which only shuttingdown fuel t next c
    else
      let (next, t) := t.readNext l
      statusLoop which only shuttingdown fuel t next (c + 1)

/-- `ConnAListenerStatusEx`: its result, and the list. -/
def connAListenerStatusEx (which : ℕ) (only : Option ℕ) (shuttingdown : Bool) : Option (ℕ × SweepHeap) :=
  if !h.async then some (0, { links := h.links })
  else h.statusLoop which only shuttingdown h.list.length { links := h.links } h.links.head 0

/-- The sweep of `ConnAListenerWaitForShutdownEx`. -/
def sweep : Option (ℕ × SweepHeap) := h.connAListenerStatusEx 0 none true

end HandleListeners

/-- `ConnAListenerWaitForShutdownEx`: the listeners as its calls find them, and as they are when it returns. -/
def connAListenerWaitForShutdownEx : List HandleListeners → Option HandleListeners
  | [] => none
  | h :: hs => if h.sweep.map Prod.fst = some 0 then some h else connAListenerWaitForShutdownEx hs

/-! ### What a sweep owes -/

namespace HandleListeners

variable (h : HandleListeners)

def independent (l : ℕ) : Bool := (h.record l).has connListenerIndependent

/-- The listener stays: it is independent, or has a conn. -/
def stays (l : ℕ) : Bool := h.independent l || (h.record l).conn.isSome

/-- **A sweep is exact:** it frees the listeners that do not stay, once each, and leaves the others in their order; it
does not read what it has freed, and returns the number of those left that are not independent. -/
def SweepExact : Prop :=
  ∃ n t, h.sweep = some (n, t) ∧ t.links.Represents (h.list.filter h.stays) ∧
    t.freed.Nodup ∧ (∀ l, l ∈ t.freed ↔ l ∈ h.list ∧ h.stays l = false) ∧ t.usedFreed = false ∧
    n = ((h.list.filter h.stays).filter fun l => !h.independent l).length

/-- **Every listener stays.** -/
def Occupied : Prop := ∀ l ∈ h.list, h.independent l = true ∨ (h.record l).conn ≠ none

/-- No listener has a conn, independent ones apart. -/
def Unconnected : Prop := ∀ l ∈ h.list, h.independent l = true ∨ (h.record l).conn = none

end HandleListeners

/-- The sweeps of a wait are exact. -/
def SweepsExact : List HandleListeners → Prop
  | [] => True
  | h :: hs => h.SweepExact ∧ (h.sweep.map Prod.fst ≠ some 0 → SweepsExact hs)

/-- **A wait is sound:** its sweeps are exact, and it returns only when no listener has a conn. -/
def SweepsSound (hs : List HandleListeners) : Prop :=
  SweepsExact hs ∧ ∀ h, connAListenerWaitForShutdownEx hs = some h → h.Unconnected

/-- Each sweep finds that every listener stays, as long as there are others than independent ones. -/
def OccupiedThroughout : List HandleListeners → Prop
  | [] => True
  | h :: hs => h.Occupied ∧ ((∃ l ∈ h.list, h.independent l = false) → OccupiedThroughout hs)

/-! ### The loop -/

section Loop

variable {h : HandleListeners} {which : ℕ} {only : Option ℕ} {t : SweepHeap}

theorem managed_unused (h : HandleListeners) (which : ℕ) (only : Option ℕ) (l : ℕ) :
    h.managed.unused which only l = (h.managed.selected which only l && (h.record l).conn.isNone) := rfl

variable (h which only t) in
/-- **The loop (proved)** ends behind the first record that it frees, or at the end of the list. -/
theorem statusLoop_spec (hfreed : t.freed = []) (hused : t.usedFreed = false) (todo : List ℕ) :
    ∀ (done : List ℕ) (fuel c : ℕ), t.links.Represents (done ++ todo) → todo.length ≤ fuel →
      h.statusLoop which only true fuel t todo.head? c =
        some (match todo.find? (h.managed.unused which only) with
          | none => (c + (todo.filter (h.managed.selected which only)).length, t)
          | some l =>
            (c + ((todo.takeWhile fun l => !h.managed.unused which only l).filter
                (h.managed.selected which only)).length,
              { t.connListenerFree l with usedFreed := true })) := by
  have hread : ∀ l, t.readNext l = (t.links.next l, t) := by
    intro l
    obtain ⟨links, freed, usedFreed⟩ := t
    cases hfreed
    cases hused
    rfl
  induction todo with
  | nil =>
    intro done fuel c _ _
    cases fuel <;> rfl
  | cons l todo ih =>
    intro done fuel c hl hfuel
    obtain ⟨fuel, rfl⟩ : ∃ n, fuel = n + 1 := ⟨fuel - 1, by simp at hfuel; omega⟩
    have hnext : t.links.next l = todo.head? := hl.next_eq
    have hrest := ih (done ++ [l]) fuel
    rw [List.append_assoc, List.singleton_append] at hrest
    have hfuel' : todo.length ≤ fuel := by simpa using hfuel
    simp only [List.head?_cons, HandleListeners.statusLoop, hread, hnext]
    cases hselected : h.managed.selected which only l with
    | false =>
      have hunused : h.managed.unused which only l = false := by
        rw [managed_unused, hselected]
        rfl
      simp only [Bool.not_false, if_true, hrest c hl hfuel', List.find?_cons, hunused, List.filter_cons, hselected,
        Bool.false_eq_true, if_false, List.takeWhile_cons]
    | true =>
      cases hconn : (h.record l).conn with
      | none =>
        have hunused : h.managed.unused which only l = true := by
          rw [managed_unused, hselected, hconn]
          rfl
        have hcleared : (t.connListenerFree l).readNext l = (none, { t.connListenerFree l with usedFreed := true }) := by
          unfold SweepHeap.readNext SweepHeap.connListenerFree
          simp [DList.remove]
        simp [hcleared, hunused, HandleListeners.statusLoop]
      | some conn =>
        have hunused : h.managed.unused which only l = false := by
          rw [managed_unused, hselected, hconn]
          rfl
        have hone : ∀ n, c + 1 + n = c + (n + 1) := fun n => by rw [Nat.add_assoc, Nat.add_comm 1]
        simp only [Bool.not_true, Bool.false_eq_true, if_false, Option.isNone_some, Bool.and_false, hrest (c + 1) hl hfuel',
          List.find?_cons, hunused, List.filter_cons, hselected, if_true, List.takeWhile_cons, Bool.not_false,
          List.length_cons, hone]

/-- **`ConnAListenerStatusEx` with `shuttingdown` (proved).** -/
theorem connAListenerStatusEx_spec (h : HandleListeners) (which : ℕ) (only : Option ℕ) :
    h.connAListenerStatusEx which only true =
      some (match h.list.find? (h.managed.unused which only) with
        | none => ((h.list.filter (h.managed.selected which only)).length, { links := h.links })
        | some l =>
          (((h.list.takeWhile fun l => !h.managed.unused which only l).filter (h.managed.selected which only)).length,
            { links := h.links.remove l, freed := [l], usedFreed := true })) := by
  unfold HandleListeners.connAListenerStatusEx
  cases hasync : h.async with
  | false =>
    have hempty : h.list = [] := by
      by_contra hne
      rw [h.enabled hne] at hasync
      cases hasync
    rw [hempty]
    rfl
  | true =>
    have hloop := statusLoop_spec h which only { links := h.links } rfl rfl h.list []
      h.list.length 0 h.formed (Nat.le_refl _)
    rw [← h.formed.head_eq] at hloop
    simp only [Nat.zero_add] at hloop
    exact hloop

/-- The handle of `ListenerCalls`. -/
def HandleListeners.handle (h : HandleListeners) : ListenerHandle := { async := h.async, managed := h.managed }

/-- **The loop is the function of `ListenerCalls` (proved):** the same result, the same list, and a freed record that is
used. -/
theorem status_refines (h : HandleListeners) (which : ℕ) (only : Option ℕ) (hasync : h.async = true) :
    ∃ n t h', h.connAListenerStatusEx which only true = some (n, t) ∧
      h.handle.connAListenerStatusEx true which only true = .returned n 0 [] h' ∧
      t.links.Represents h'.managed.list ∧ t.usedFreed = h'.managed.usedFreed := by
  have hcheck : h.handle.check true only = none := by
    simp [ListenerHandle.check, HandleListeners.handle, hasync]
  rw [connAListenerStatusEx_spec]
  unfold ListenerHandle.connAListenerStatusEx
  rw [hcheck]
  cases hfind : h.list.find? (h.managed.unused which only) with
  | none =>
    have hall : h.list.takeWhile (fun l => !h.managed.unused which only l) = h.list := by
      refine List.takeWhile_eq_self_iff.mpr fun l hl => ?_
      simpa using List.find?_eq_none.mp hfind l hl
    have hstatus : h.managed.status which only = h.managed := by
      unfold ManagedListeners.status
      rw [show h.managed.list = h.list from rfl, hfind]
    refine ⟨_, _, { h.handle with managed := h.managed.status which only }, rfl, ?_, ?_, ?_⟩
    · simp only [if_true]
      rw [show h.handle.managed = h.managed from rfl, show h.managed.list = h.list from rfl, hall]
    · show h.links.Represents (h.managed.status which only).list
      rw [hstatus]
      exact h.formed
    · show false = (h.managed.status which only).usedFreed
      rw [hstatus]
      rfl
  | some l =>
    have hstatus : h.managed.status which only = { h.managed with list := h.list.erase l, usedFreed := true } := by
      unfold ManagedListeners.status
      rw [show h.managed.list = h.list from rfl, hfind]
    refine ⟨_, _, { h.handle with managed := h.managed.status which only }, rfl, rfl, ?_, ?_⟩
    · show (h.links.remove l).Represents (h.managed.status which only).list
      rw [hstatus]
      exact DList.represents_remove h.formed (List.mem_of_find?_eq_some hfind)
    · show true = (h.managed.status which only).usedFreed
      rw [hstatus]

end Loop

/-! ### The results -/

section Sweep

variable {h : HandleListeners}

theorem managed_selected_zero (h : HandleListeners) : h.managed.selected 0 none = fun l => !h.independent l := by
  funext l
  simp [ManagedListeners.selected, HandleListeners.independent, HandleListeners.managed]

theorem managed_unused_zero (h : HandleListeners) : h.managed.unused 0 none = fun l => !h.stays l := by
  funext l
  rw [managed_unused, managed_selected_zero]
  show (!h.independent l && (h.record l).conn.isNone) = !(h.independent l || (h.record l).conn.isSome)
  cases h.independent l <;> cases (h.record l).conn <;> rfl

theorem stays_iff (l : ℕ) : h.stays l = true ↔ h.independent l = true ∨ (h.record l).conn ≠ none := by
  unfold HandleListeners.stays
  rw [Bool.or_eq_true, Option.isSome_iff_ne_none]

/-- Where every listener stays, a sweep counts those that are not independent. -/
theorem sweep_occupied (hstays : h.Occupied) :
    h.sweep = some ((h.list.filter fun l => !h.independent l).length, { links := h.links }) := by
  have hnone : h.list.find? (h.managed.unused 0 none) = none := by
    rw [List.find?_eq_none, managed_unused_zero]
    intro l hl
    simp [(stays_iff l).mpr (hstays l hl)]
  rw [HandleListeners.sweep, connAListenerStatusEx_spec, hnone, managed_selected_zero]

/-- Otherwise it reads the record that it has freed. -/
theorem sweep_vacant (hvacant : ¬ h.Occupied) : ∃ n t, h.sweep = some (n, t) ∧ t.usedFreed = true := by
  rw [HandleListeners.sweep, connAListenerStatusEx_spec, managed_unused_zero]
  cases hfind : h.list.find? fun l => !h.stays l with
  | none =>
    refine absurd (fun l hl => ?_) hvacant
    have hl' := List.find?_eq_none.mp hfind l hl
    rw [Bool.not_eq_true', Bool.not_eq_false] at hl'
    exact (stays_iff l).mp hl'
  | some l => exact ⟨_, _, rfl, rfl⟩

/-- **A sweep is exact exactly when every listener stays (proved).** -/
theorem sweepExact_iff (h : HandleListeners) : h.SweepExact ↔ h.Occupied := by
  by_cases hstays : h.Occupied
  · refine iff_of_true ?_ hstays
    have hall : h.list.filter h.stays = h.list :=
      List.filter_eq_self.mpr fun l hl => (stays_iff l).mpr (hstays l hl)
    refine ⟨_, _, sweep_occupied hstays, ?_, List.nodup_nil, fun l => ?_, rfl, ?_⟩
    · rw [hall]
      exact h.formed
    · refine iff_of_false List.not_mem_nil ?_
      rintro ⟨hl, hfalse⟩
      rw [(stays_iff l).mpr (hstays l hl)] at hfalse
      cases hfalse
    · rw [hall]
  · refine iff_of_false ?_ hstays
    rintro ⟨n, t, hsweep, _, _, _, hused, _⟩
    obtain ⟨n', t', hsweep', hused'⟩ := sweep_vacant hstays
    cases hsweep.symm.trans hsweep'
    rw [hused] at hused'
    cases hused'

/-- A sweep of listeners that all stay returns 0 when all of them are independent. -/
theorem sweep_zero_iff (hstays : h.Occupied) :
    h.sweep.map Prod.fst = some 0 ↔ ¬ ∃ l ∈ h.list, h.independent l = false := by
  rw [sweep_occupied hstays]
  simp [List.filter_eq_nil_iff]

end Sweep

/-- **A wait is sound exactly when each of its sweeps finds that every listener stays (proved).** -/
theorem sweepsSound_iff (hs : List HandleListeners) : SweepsSound hs ↔ OccupiedThroughout hs := by
  induction hs with
  | nil => exact iff_of_true ⟨trivial, fun h hwait => by cases hwait⟩ trivial
  | cons h hs ih =>
    by_cases hstays : h.Occupied
    · have hexact := (sweepExact_iff h).mpr hstays
      by_cases hother : ∃ l ∈ h.list, h.independent l = false
      · have hgo : h.sweep.map Prod.fst ≠ some 0 := fun hzero => (sweep_zero_iff hstays).mp hzero hother
        unfold SweepsSound SweepsExact OccupiedThroughout connAListenerWaitForShutdownEx
        rw [if_neg hgo]
        constructor
        · rintro ⟨⟨_, hsweeps⟩, hwait⟩
          exact ⟨hstays, fun _ => ih.mp ⟨hsweeps hgo, hwait⟩⟩
        · rintro ⟨_, hthroughout⟩
          obtain ⟨hsweeps, hwait⟩ := ih.mpr (hthroughout hother)
          exact ⟨⟨hexact, fun _ => hsweeps⟩, hwait⟩
      · have hend : h.sweep.map Prod.fst = some 0 := (sweep_zero_iff hstays).mpr hother
        unfold SweepsSound SweepsExact OccupiedThroughout connAListenerWaitForShutdownEx
        rw [if_pos hend]
        refine iff_of_true ⟨⟨hexact, fun hgo => absurd hend hgo⟩, fun h' hwait => ?_⟩
          ⟨hstays, fun hsome => absurd hsome hother⟩
        cases hwait
        intro l hl
        cases hindependent : h.independent l with
        | true => exact .inl rfl
        | false => exact absurd ⟨l, hl, hindependent⟩ hother
    · refine iff_of_false ?_ fun hthroughout => hstays hthroughout.1
      rintro ⟨⟨hexact, _⟩, _⟩
      exact hstays ((sweepExact_iff h).mp hexact)

/-- Two listeners: the first one has failed, the second one is active. -/
def failedAndActive : HandleListeners where
  async := true
  links := (DList.empty.append 0).append 1
  record := fun l => if l = 0 then ⟨none, connListenerFailed⟩ else ⟨some 7, connListenerActive⟩
  list := [0, 1]
  formed := DList.represents_append (l := [0]) (DList.represents_append (l := []) DList.represents_empty (by decide))
    (by decide)
  enabled := fun _ => rfl

/-- **A sweep reads what it has freed,** and the wait returns while a listener has a conn. -/
theorem sweep_fails : ¬ ∀ hs : List HandleListeners, SweepsSound hs := by
  intro hall
  have hwait : connAListenerWaitForShutdownEx [failedAndActive] = some failedAndActive := by
    have hzero : failedAndActive.sweep.map Prod.fst = some 0 := by decide
    unfold connAListenerWaitForShutdownEx
    rw [if_pos hzero]
  rcases (hall [failedAndActive]).2 failedAndActive hwait 1 (by decide) with hindependent | hconn
  · revert hindependent
    decide
  · cases hconn

end Connio
