import Connio.Lib.DoublyLinked
import Mathlib.Algebra.Order.Group.Int

/-!
# The list of the conns of a handle

`ConnListAppend`, `ConnListRemove` and `ConnListPush` (`connio.c`), which link conns by the `list` field in each of
them, and count them.

* `ConnList` — the anchor, and the fields of the conns;
* `ListCall`, `ConnList.call` — a call, as the source writes it;
* `ListCall.members`, `ListCall.mature` — what the list is to be after a call, and what the call is to return;
* `ConnList.Holds` — the anchor and the conns hold exactly the members;
* `call_holds` — **PROVED**: a call does what it is to do unless `ConnListPush` finds more conns than the limit;
* `push_count` — **PROVED**: if it does, the count is one too large afterwards;
* `listSound_iff` — **PROVED**: a run is sound exactly when no push of it goes beyond the limit.
-/

namespace Connio

open Connio.Lib

/-! ### The anchor and the conns -/

/-- `ConnList`, and `list.next` and `list.previous` of the conns. -/
structure ConnList where
  head : Option ℕ := none
  tail : Option ℕ := none
  count : ℤ := 0
  peak : ℤ := 0
  limit : ℤ := 0
  next : ℕ → Option ℕ := fun _ => none
  previous : ℕ → Option ℕ := fun _ => none

namespace ConnList

variable (s : ConnList)

/-- `connListAppend` -/
def linkLast (conn : ℕ) : ConnList :=
  let count := s.count + 1
  let s := { s with
    count := count
    peak := if count > s.peak then count else s.peak
    previous := Function.update s.previous conn s.tail }
  match s.tail with
  | some t => { s with next := Function.update s.next t (some conn), tail := some conn }
  | none => { s with head := some conn, tail := some conn }

/-- `connListRemoveMature`; `none` when it uses NULL. -/
def connListRemoveMature : Option (Option ℕ × ConnList) :=
  if s.count > s.limit then
    match s.head with
    | some mature =>
      some (some mature, { s with
        head := s.next mature
        tail := if (s.next mature).isNone then none else s.tail
        next := Function.update s.next mature none
        previous := Function.update s.previous mature none })
    | none => none
  else some (none, s)

/-- `ConnListAppend` -/
def connListAppend (conn : ℕ) : ConnList := linkLast { s with next := Function.update s.next conn none } conn

/-- The forward link is led round the conn. -/
def unlinkNext (conn : ℕ) : ConnList :=
  match s.previous conn with
  | some p => { s with next := Function.update s.next p (s.next conn) }
  | none => { s with head := s.next conn }

/-- The backward link is led round the conn. -/
def unlinkPrevious (conn : ℕ) : ConnList :=
  match s.next conn with
  | some n => { s with previous := Function.update s.previous n (s.previous conn) }
  | none => { s with tail := s.previous conn }

/-- `ConnListRemove` -/
def connListRemove (conn : ℕ) : ConnList :=
  let s := (s.unlinkNext conn).unlinkPrevious conn
  { s with
    count := s.count - 1
    next := Function.update s.next conn none
    previous := Function.update s.previous conn none }

/-- `ConnListPush` -/
def connListPush (conn : ℕ) : Option (Option ℕ × ConnList) :=
  (linkLast { s with next := Function.update s.next conn none } conn).connListRemoveMature

end ConnList

inductive ListCall where
  | append (conn : ℕ)
  | remove (conn : ℕ)
  | push (conn : ℕ)
  deriving DecidableEq, Repr

/-- **One call:** what it returns, and what it leaves. -/
def ConnList.call (s : ConnList) : ListCall → Option (Option ℕ × ConnList)
  | .append conn => some (none, s.connListAppend conn)
  | .remove conn => some (none, s.connListRemove conn)
  | .push conn => s.connListPush conn

/-! ### What the calls are to do -/

namespace ListCall

/-- A conn that is appended or pushed is not in the list, and one that is removed is. -/
def Allowed (l : List ℕ) : ListCall → Prop
  | append conn | push conn => conn ∉ l
  | remove conn => conn ∈ l

/-- A push that makes the list longer than the limit. -/
def Exceeds (limit : ℤ) (l : List ℕ) : ListCall → Prop
  | append _ | remove _ => False
  | push _ => limit < l.length + 1

instance (limit : ℤ) (l : List ℕ) (c : ListCall) : Decidable (c.Exceeds limit l) :=
  match c with
  | append _ | remove _ => instDecidableFalse
  | push _ => inferInstanceAs (Decidable (limit < l.length + 1))

/-- The members after the call: a push that exceeds the limit takes the oldest member. -/
def members (limit : ℤ) (l : List ℕ) : ListCall → List ℕ
  | append conn => l ++ [conn]
  | remove conn => l.erase conn
  | push conn => if limit < l.length + 1 then (l ++ [conn]).tail else l ++ [conn]

/-- What the call returns. -/
def mature (limit : ℤ) (l : List ℕ) : ListCall → Option ℕ
  | append _ | remove _ => none
  | push conn => if limit < l.length + 1 then (l ++ [conn]).head? else none

end ListCall

/-- **The anchor and the conns hold exactly the members,** the count is their number, and the peak is not below it. -/
structure ConnList.Holds (s : ConnList) (l : List ℕ) : Prop where
  nodup : l.Nodup
  head : s.head = l.head?
  tail : s.tail = l.getLast?
  linked : Linked s.next s.previous none l none
  count : s.count = l.length
  peak : s.count ≤ s.peak

/-- **The list is sound throughout the calls:** each of them returns what it is to return, and a push keeps the length
within the limit, or as it was. -/
def ListSound (s : ConnList) (l : List ℕ) : List ListCall → Prop
  | [] => s.Holds l
  | c :: cs => s.Holds l ∧
      (∀ conn, c = .push conn → ((c.members s.limit l).length : ℤ) ≤ max s.limit l.length) ∧
      ∃ s', s.call c = some (c.mature s.limit l, s') ∧ ListSound s' (c.members s.limit l) cs

/-- Each call is allowed when it comes. -/
def ListAllowed (limit : ℤ) (l : List ℕ) : List ListCall → Prop
  | [] => True
  | c :: cs => c.Allowed l ∧ ListAllowed limit (c.members limit l) cs

/-- **No push of the calls exceeds the limit.** -/
def NeverExceeds (limit : ℤ) (l : List ℕ) : List ListCall → Prop
  | [] => True
  | c :: cs => ¬ c.Exceeds limit l ∧ NeverExceeds limit (c.members limit l) cs

/-- The calls on a new list, with its limit. -/
structure ListRun where
  limit : ℤ
  calls : List ListCall
  allowed : ListAllowed limit [] calls

/-- `ConnListInit`, and the limit -/
def ListRun.start (r : ListRun) : ConnList := { limit := r.limit }

/-! ### The links are those of a doubly linked list -/

/-- The anchor and the links, without the peak and the limit. -/
def ConnList.dlist (s : ConnList) : DList ℕ where
  head := s.head
  tail := s.tail
  count := s.count.toNat
  next := s.next
  previous := s.previous

section Links

variable {s : ConnList} {l : List ℕ} {conn : ℕ}

theorem holds_iff : s.Holds l ↔ s.dlist.Represents l ∧ s.count = l.length ∧ s.count ≤ s.peak := by
  constructor
  · intro h
    refine ⟨⟨h.nodup, ?_, h.head, h.tail, h.linked⟩, h.count, h.peak⟩
    show s.count.toNat = l.length
    rw [h.count, Int.toNat_natCast]
  · rintro ⟨hlinks, hcount, hpeak⟩
    exact ⟨hlinks.nodup, hlinks.head_eq, hlinks.tail_eq, hlinks.linked, hcount, hpeak⟩

/-- `ConnListAppend` is an append of the list. -/
theorem connListAppend_dlist (hcount : 0 ≤ s.count) : (s.connListAppend conn).dlist = s.dlist.append conn := by
  have hsucc : (s.count + 1).toNat = s.count.toNat + 1 := by omega
  unfold ConnList.connListAppend ConnList.linkLast DList.append
  cases htail : s.tail with
  | none =>
    simp only [ConnList.dlist, htail, hsucc]
  | some t =>
    simp only [ConnList.dlist, htail, hsucc]

theorem unlinkNext_dlist (s : ConnList) (count : ℕ) : { (s.unlinkNext conn).dlist with count := count } =
    DList.bypassNext { s.dlist with count := count } conn := by
  unfold ConnList.unlinkNext DList.bypassNext
  cases hprevious : s.previous conn <;> simp only [ConnList.dlist, hprevious]

theorem unlinkPrevious_dlist (s : ConnList) (conn count : ℕ) : { (s.unlinkPrevious conn).dlist with count := count } =
    DList.bypassPrevious { s.dlist with count := count } conn := by
  unfold ConnList.unlinkPrevious DList.bypassPrevious
  cases hnext : s.next conn <;> simp only [ConnList.dlist, hnext]

theorem unlink_count (s : ConnList) (conn : ℕ) : ((s.unlinkNext conn).unlinkPrevious conn).count = s.count ∧
    ((s.unlinkNext conn).unlinkPrevious conn).peak = s.peak ∧
    ((s.unlinkNext conn).unlinkPrevious conn).limit = s.limit := by
  unfold ConnList.unlinkPrevious ConnList.unlinkNext
  split <;> split <;> exact ⟨rfl, rfl, rfl⟩

/-- `ConnListRemove` is a removal from the list. -/
theorem connListRemove_dlist (s : ConnList) (conn : ℕ) : (s.connListRemove conn).dlist = s.dlist.remove conn := by
  obtain ⟨hcount, _, _⟩ := unlink_count s conn
  have hpred : (s.count - 1).toNat = s.count.toNat - 1 := by omega
  have hprevious := unlinkPrevious_dlist (s.unlinkNext conn) conn (s.count.toNat - 1)
  rw [unlinkNext_dlist] at hprevious
  unfold DList.remove
  have hd : ({ s.dlist with count := s.dlist.count - 1 } : DList ℕ) = { s.dlist with count := s.count.toNat - 1 } := rfl
  simp only [hd, ← hprevious]
  simp only [ConnList.connListRemove, ConnList.dlist, hcount, hpred]

end Links

/-! ### One call -/

section Calls

variable {s : ConnList} {l : List ℕ}

theorem linkLast_fields (s : ConnList) (conn : ℕ) : (s.linkLast conn).count = s.count + 1 ∧
    (s.linkLast conn).peak = (if s.count + 1 > s.peak then s.count + 1 else s.peak) ∧
    (s.linkLast conn).limit = s.limit := by
  unfold ConnList.linkLast
  cases htail : s.tail <;> exact ⟨rfl, rfl, rfl⟩

/-- **`ConnListAppend` (proved).** -/
theorem connListAppend_holds (h : s.Holds l) {conn : ℕ} (hconn : conn ∉ l) :
    (s.connListAppend conn).Holds (l ++ [conn]) ∧ (s.connListAppend conn).limit = s.limit := by
  obtain ⟨hlinks, hcount, hpeak⟩ := holds_iff.mp h
  have hpos : 0 ≤ s.count := by omega
  obtain ⟨hcount', hpeak', hlimit⟩ := linkLast_fields { s with next := Function.update s.next conn none } conn
  change (s.connListAppend conn).count = s.count + 1 at hcount'
  change (s.connListAppend conn).peak = (if s.count + 1 > s.peak then s.count + 1 else s.peak) at hpeak'
  refine ⟨holds_iff.mpr ⟨?_, ?_, ?_⟩, hlimit⟩
  · rw [connListAppend_dlist hpos]
    exact DList.represents_append hlinks hconn
  · rw [hcount', hcount, List.length_append, List.length_singleton]
    omega
  · rw [hcount', hpeak']
    split <;> omega

/-- **`ConnListRemove` (proved).** -/
theorem connListRemove_holds (h : s.Holds l) {conn : ℕ} (hconn : conn ∈ l) :
    (s.connListRemove conn).Holds (l.erase conn) ∧ (s.connListRemove conn).limit = s.limit := by
  obtain ⟨hlinks, hcount, hpeak⟩ := holds_iff.mp h
  obtain ⟨hsame, hsamePeak, hlimit⟩ := unlink_count s conn
  have hcount' : (s.connListRemove conn).count = s.count - 1 := congrArg (· - 1) hsame
  have hpeak' : (s.connListRemove conn).peak = s.peak := hsamePeak
  refine ⟨holds_iff.mpr ⟨?_, ?_, ?_⟩, hlimit⟩
  · rw [connListRemove_dlist]
    exact DList.represents_remove hlinks hconn
  · have hlength := List.length_erase_add_one hconn
    omega
  · omega

/-- **`ConnListPush` within the limit (proved):** it appends. -/
theorem connListPush_within (h : s.Holds l) {conn : ℕ} (hconn : conn ∉ l) (hle : (l.length : ℤ) + 1 ≤ s.limit) :
    s.connListPush conn = some (none, s.connListAppend conn) := by
  obtain ⟨hholds, hlimit⟩ := connListAppend_holds h hconn
  have hcount : ¬ (s.connListAppend conn).count > (s.connListAppend conn).limit := by
    rw [hholds.count, hlimit, List.length_append, List.length_singleton]
    omega
  exact if_neg hcount

/-- **`ConnListPush` beyond the limit (proved):** the oldest conn goes, and the count does not. -/
theorem push_count (h : s.Holds l) {conn : ℕ} (hconn : conn ∉ l) (hexceeds : s.limit < (l.length : ℤ) + 1) :
    ∃ s', s.connListPush conn = some ((l ++ [conn]).head?, s') ∧ s'.count = l.length + 1 := by
  obtain ⟨hholds, hlimit⟩ := connListAppend_holds h hconn
  have hcount : (s.connListAppend conn).count = l.length + 1 := by
    rw [hholds.count, List.length_append, List.length_singleton]
    omega
  have hgreater : (s.connListAppend conn).count > (s.connListAppend conn).limit := by
    rw [hcount, hlimit]
    exact hexceeds
  obtain ⟨mature, hmature⟩ : ∃ mature, (l ++ [conn]).head? = some mature := by
    cases l with
    | nil => exact ⟨conn, rfl⟩
    | cons x _ => exact ⟨x, rfl⟩
  have hhead : (s.connListAppend conn).head = some mature := hholds.head.trans hmature
  have hpush : s.connListPush conn = (s.connListAppend conn).connListRemoveMature := rfl
  rw [hpush]
  unfold ConnList.connListRemoveMature
  rw [if_pos hgreater]
  simp only [hhead, hmature]
  exact ⟨_, rfl, hcount⟩

/-- **A call that does not exceed the limit does what it is to do (proved).** -/
theorem call_holds (h : s.Holds l) {c : ListCall} (hallowed : c.Allowed l) (hnot : ¬ c.Exceeds s.limit l) :
    ∃ s', s.call c = some (c.mature s.limit l, s') ∧ s'.Holds (c.members s.limit l) ∧ s'.limit = s.limit := by
  cases c with
  | append conn => exact ⟨_, rfl, connListAppend_holds h hallowed⟩
  | remove conn => exact ⟨_, rfl, connListRemove_holds h hallowed⟩
  | push conn =>
    have hle : ¬ s.limit < (l.length : ℤ) + 1 := hnot
    refine ⟨s.connListAppend conn, ?_, ?_⟩
    · simp only [ConnList.call, ListCall.mature, if_neg hle]
      exact connListPush_within h hallowed (Int.not_lt.mp hle)
    · simp only [ListCall.members, if_neg hle]
      exact connListAppend_holds h hallowed

/-- A push keeps the length within the limit, or as it was. -/
theorem members_length (limit : ℤ) (l : List ℕ) (conn : ℕ) :
    (((ListCall.push conn).members limit l).length : ℤ) ≤ max limit l.length := by
  show ((if limit < l.length + 1 then (l ++ [conn]).tail else l ++ [conn]).length : ℤ) ≤ _
  split
  · rw [List.length_tail, List.length_append, List.length_singleton, Nat.add_sub_cancel]
    exact le_max_right _ _
  next hle =>
    rw [List.length_append, List.length_singleton]
    exact (Int.not_lt.mp hle).trans (le_max_left _ _)

end Calls

/-! ### A run -/

/-- **A run from a list that holds its members (proved).** -/
theorem listSound_run (calls : List ListCall) : ∀ (s : ConnList) (l : List ℕ), s.Holds l →
    ListAllowed s.limit l calls → (ListSound s l calls ↔ NeverExceeds s.limit l calls) := by
  induction calls with
  | nil => exact fun s l h _ => iff_of_true h trivial
  | cons c cs ih =>
    intro s l h hallowed
    by_cases hexceeds : c.Exceeds s.limit l
    · refine iff_of_false ?_ fun hnever => hnever.1 hexceeds
      rintro ⟨_, _, s', hcall, hsound⟩
      cases c with
      | append conn | remove conn => exact hexceeds
      | push conn =>
        obtain ⟨s'', hpush, hcount⟩ := push_count h hallowed.1 hexceeds
        have hs : s'' = s' := (Prod.mk.inj (Option.some.inj (hpush.symm.trans hcall))).2
        have hholds : s'.Holds ((ListCall.push conn).members s.limit l) := by
          cases cs with
          | nil => exact hsound
          | cons _ _ => exact hsound.1
        have hmembers : (ListCall.push conn).members s.limit l = (l ++ [conn]).tail := if_pos hexceeds
        have hlength := hholds.count
        rw [← hs, hcount, hmembers, List.length_tail, List.length_append, List.length_singleton,
          Nat.add_sub_cancel] at hlength
        omega
    · obtain ⟨s', hcall, hholds, hlimit⟩ := call_holds h hallowed.1 hexceeds
      have hrest := ih s' (c.members s.limit l) hholds (hlimit.symm ▸ hallowed.2)
      rw [hlimit] at hrest
      constructor
      · rintro ⟨_, _, s'', hcall', hsound⟩
        have hs : s' = s'' := (Prod.mk.inj (Option.some.inj (hcall.symm.trans hcall'))).2
        exact ⟨hexceeds, hrest.mp (hs ▸ hsound)⟩
      · rintro ⟨_, hnever⟩
        refine ⟨h, fun conn hconn => ?_, s', hcall, hrest.mpr hnever⟩
        subst hconn
        exact members_length s.limit l conn

/-- **The list of a handle is sound exactly when no push exceeds its limit (proved).** -/
theorem listSound_iff (r : ListRun) : ListSound r.start [] r.calls ↔ NeverExceeds r.limit [] r.calls :=
  listSound_run r.calls r.start [] ⟨List.nodup_nil, rfl, rfl, trivial, rfl, Int.le_refl 0⟩ r.allowed

/-- One conn is pushed on a list with the limit zero, which `ConnListInit` leaves. -/
def onePush : ListRun where
  limit := 0
  calls := [.push 0]
  allowed := ⟨List.not_mem_nil, trivial⟩

/-- **A push that exceeds the limit leaves a count that is too large.** -/
theorem push_miscounts : ¬ ∀ r : ListRun, ListSound r.start [] r.calls := by
  intro h
  obtain ⟨_, _, s', hcall, hsound⟩ := h onePush
  cases hcall
  exact absurd hsound.count (by decide)

end Connio
