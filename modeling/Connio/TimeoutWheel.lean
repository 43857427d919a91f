import Mathlib.Algebra.Group.Nat.Defs
import Connio.Event
import Connio.Lib.Transition

/-!
# The timeout wheel

A poll thread keeps its events that may time out on 64 lists, one for each 32 seconds (`sockunix.c`): an event is put
on the list of its deadline, and a list is detached when the clock comes to its index.

* `timeoutIndex`, `SPollInfo` — `TIMEOUT_INDEX`, and a wheel with its clock;
* `socketTimeoutAdd`, `socketTimeoutDelete`, `expire` — the functions of the wheel;
* `WheelAction`, `wheelStep` — the poll thread, and the threads that add and delete events;
* `WithinTurn`, `never_early_iff` — **PROVED**: a timeout is not early if, and only if, it ends within one turn of the
  wheel;
* `InTime`, `detached_iff` — **PROVED**: a timeout is not missed if, and only if, the clock is read in the 32 seconds of
  its list, and these are still to come;
* `inTime_of_gaps` — **PROVED**: a loop that reads the clock every 32 seconds reads it in time.
-/

namespace Connio

open Connio.Lib

/-! ### The wheel -/

/-- `SOCKET_TIMEOUT_GRANULARITY`, in seconds -/
def socketTimeoutGranularity : ℕ := 32

/-- `SOCKET_TIMEOUT_LISTS` -/
def socketTimeoutLists : ℕ := 64

/-- `TIMEOUT_INDEX` -/
def timeoutIndex (t : ℕ) : ℕ := t / socketTimeoutGranularity % socketTimeoutLists

structure SPollInfo where
  /-- in seconds -/
  now : ℕ
  timeoutIndex : ℕ
  timeoutList : ℕ → List ℕ := fun _ => []
  /-- `event->timeoutList` -/
  linked : ℕ → Option ℕ := fun _ => none
  /-- the poll thread has set `now`, and has not yet compared the index -/
  clockRead : Bool := false

/-- The second an event is put on the wheel for: its deadline, rounded up. -/
def wheelDeadline (now timeout : ℕ) : ℕ := now + timeout / 1000 + (socketTimeoutGranularity - 1)

namespace SPollInfo

variable (s : SPollInfo)

/-- An event is put at the head of a list. -/
def link (e i : ℕ) : SPollInfo :=
  { s with
    timeoutList := Function.update s.timeoutList i (e :: s.timeoutList i)
    linked := Function.update s.linked e (some i) }

/-- An event is taken off a list. -/
def unlink (e i : ℕ) : SPollInfo :=
  { s with
    timeoutList := Function.update s.timeoutList i ((s.timeoutList i).filter (· ≠ e))
    linked := Function.update s.linked e none }

/-- All events are taken off a list. -/
def detach (i : ℕ) : SPollInfo :=
  { s with
    timeoutList := Function.update s.timeoutList i []
    linked := fun e => if e ∈ s.timeoutList i then none else s.linked e }

/-- `_SocketTimeoutAdd`; the timeout is in milliseconds. -/
def socketTimeoutAdd (e timeout : ℕ) : SPollInfo :=
  if timeout = 0 then s
  else
    match s.linked e with
    | some _ => s
    | none => s.link e (Connio.timeoutIndex (wheelDeadline s.now timeout))

/-- `_SocketTimeoutDelete` -/
def socketTimeoutDelete (e : ℕ) : SPollInfo :=
  match s.linked e with
  | none => s
  | some i => s.unlink e i

/-- What `_PollThread` does when it has read the clock: the list of a new index is detached. -/
def expire : SPollInfo :=
  if s.timeoutIndex = Connio.timeoutIndex s.now then { s with clockRead := false }
  else
    { s.detach (Connio.timeoutIndex s.now) with
      timeoutIndex := Connio.timeoutIndex s.now
      clockRead := false }

/-- `sockEngineInit` -/
def sockEngineInit (now : ℕ) : SPollInfo where
  now := now
  timeoutIndex := Connio.timeoutIndex now

end SPollInfo

inductive WheelAction where
  | add (e timeout : ℕ)
  | delete (e : ℕ)
  /-- the poll thread reads the clock -/
  | clock (now : ℕ)
  | expire
  deriving DecidableEq, Repr

/-- The event an action is about. -/
def WheelAction.event : WheelAction → Option ℕ
  | add e _ | delete e => some e
  | _ => none

/-- **One step;** `none` when it is not enabled.  The clock does not go back. -/
def wheelStep (s : SPollInfo) : WheelAction → Option SPollInfo
  | .add e timeout => some (s.socketTimeoutAdd e timeout)
  | .delete e => some (s.socketTimeoutDelete e)
  | .clock now =>
    if s.clockRead = false ∧ s.now ≤ now then some { s with now := now, clockRead := true } else none
  | .expire => if s.clockRead = true then some s.expire else none

/-- The clock values that are read in a run. -/
def wheelClocks : List WheelAction → List ℕ
  | [] => []
  | .clock now :: as => now :: wheelClocks as
  | _ :: as => wheelClocks as

/-! ### The invariant -/

/-- **The lists and the events agree, and the index is that of the clock** when the poll thread waits. -/
structure WheelInv (s : SPollInfo) : Prop where
  linked : ∀ e i, s.linked e = some i ↔ e ∈ s.timeoutList i
  index : s.clockRead = false → s.timeoutIndex = timeoutIndex s.now

section Invariant

variable {s s' : SPollInfo} {e i : ℕ} {a : WheelAction}

/-- The lists and the events agree after a change of one event and one list. -/
theorem linked_update {linked : ℕ → Option ℕ} {list : ℕ → List ℕ} {v : Option ℕ} {l : List ℕ}
    (h : ∀ e i, linked e = some i ↔ e ∈ list i) (hself : ∀ j, v = some j ↔ e ∈ Function.update list i l j)
    (hl : ∀ e', e' ≠ e → (e' ∈ l ↔ e' ∈ list i)) (e' i' : ℕ) :
    Function.update linked e v e' = some i' ↔ e' ∈ Function.update list i l i' := by
  by_cases he : e' = e
  · rw [he, Function.update_self]
    exact hself i'
  · rw [Function.update_of_ne he, h]
    by_cases hi : i' = i
    · rw [hi, Function.update_self]
      exact (hl e' he).symm
    · rw [Function.update_of_ne hi]

theorem WheelInv.link (h : WheelInv s) (hnone : s.linked e = none) (i : ℕ) : WheelInv (s.link e i) := by
  refine ⟨linked_update h.linked (fun j => ?_) fun e' he => ?_, h.index⟩
  · have hnot : e ∉ s.timeoutList j := fun hmem => by
      rw [← h.linked, hnone] at hmem
      cases hmem
    by_cases hj : j = i
    · rw [hj, Function.update_self]
      exact iff_of_true rfl List.mem_cons_self
    · rw [Function.update_of_ne hj]
      exact iff_of_false (fun heq => hj (Option.some.inj heq).symm) hnot
  · rw [List.mem_cons, or_iff_right he]

theorem WheelInv.unlink (h : WheelInv s) (hsome : s.linked e = some i) : WheelInv (s.unlink e i) := by
  refine ⟨linked_update h.linked (fun j => iff_of_false (by simp) ?_) fun e' he => ?_, h.index⟩
  · by_cases hj : j = i
    · rw [hj, Function.update_self]
      simp
    · rw [Function.update_of_ne hj, ← h.linked, hsome]
      exact fun heq => hj (Option.some.inj heq).symm
  · rw [List.mem_filter, and_iff_left (decide_eq_true he)]

theorem WheelInv.add (h : WheelInv s) (e timeout : ℕ) : WheelInv (s.socketTimeoutAdd e timeout) := by
  unfold SPollInfo.socketTimeoutAdd
  split
  · exact h
  split
  · exact h
  next hnone => exact h.link hnone _

theorem WheelInv.delete (h : WheelInv s) (e : ℕ) : WheelInv (s.socketTimeoutDelete e) := by
  unfold SPollInfo.socketTimeoutDelete
  split
  · exact h
  next hsome => exact h.unlink hsome

/-- No event says that it is on a list that has been detached. -/
theorem WheelInv.detach_linked (h : WheelInv s) (i e' i' : ℕ) :
    (s.detach i).linked e' = some i' ↔ e' ∈ (s.detach i).timeoutList i' := by
  have hlist := h.linked e' i'
  by_cases hi : i' = i
  · subst hi
    refine iff_of_false ?_ (by simp [SPollInfo.detach])
    simp only [SPollInfo.detach]
    split
    · simp
    next hnot => exact fun heq => hnot (hlist.mp heq)
  · simp only [SPollInfo.detach, Function.update_of_ne hi, ← hlist]
    split
    next hmem =>
      rw [← h.linked] at hmem
      simp [hmem, Ne.symm hi]
    · exact Iff.rfl

theorem WheelInv.expire (h : WheelInv s) : WheelInv s.expire := by
  unfold SPollInfo.expire
  split
  next hsame => exact ⟨h.linked, fun _ => hsame⟩
  · exact ⟨h.detach_linked _, fun _ => rfl⟩

theorem wheelStep_inv (h : WheelInv s) (hstep : wheelStep s a = some s') : WheelInv s' := by
  cases a with
  | add e timeout =>
    cases hstep
    exact h.add e timeout
  | delete e =>
    cases hstep
    exact h.delete e
  | clock now =>
    simp only [wheelStep] at hstep
    split at hstep
    · cases hstep
      exact ⟨h.linked, fun hread => by cases hread⟩
    · cases hstep
  | expire =>
    simp only [wheelStep] at hstep
    split at hstep
    · cases hstep
      exact h.expire
    · cases hstep

theorem wheelInv_of_reachable {start : ℕ} (h : Reachable (enabled wheelStep) (.sockEngineInit start) s) :
    WheelInv s := by
  refine h.invariant ⟨fun e i => ?_, fun _ => rfl⟩ fun _ _ _ hs _ hstep => wheelStep_inv hs hstep
  simp [SPollInfo.sockEngineInit]

/-! ### An event on its list -/

/-- **Detaching a list:** the events on it, when its index is new. -/
theorem WheelInv.expire_linked (h : WheelInv s) (hlinked : s.linked e = some i) : s.expire.linked e =
    if s.timeoutIndex ≠ timeoutIndex s.now ∧ timeoutIndex s.now = i then none else some i := by
  have hmem : e ∈ s.timeoutList (timeoutIndex s.now) ↔ timeoutIndex s.now = i := by
    rw [← h.linked, hlinked, Option.some.injEq, eq_comm]
  unfold SPollInfo.expire
  by_cases hsame : s.timeoutIndex = timeoutIndex s.now
  · rw [if_pos hsame, if_neg (fun hnew => hnew.1 hsame)]
    exact hlinked
  · rw [if_neg hsame]
    simp only [SPollInfo.detach, hmem, hlinked, ne_eq, hsame, not_false_eq_true, true_and]

theorem expire_now (s : SPollInfo) : s.expire.now = s.now ∧ s.expire.clockRead = false ∧
    s.expire.timeoutIndex = timeoutIndex s.now := by
  unfold SPollInfo.expire
  split
  next hsame => exact ⟨rfl, rfl, hsame⟩
  · exact ⟨rfl, rfl, rfl⟩

/-- Once an event is off its list, it stays so until it is added again. -/
theorem expire_unlinked (hlinked : s.linked e = none) : s.expire.linked e = none := by
  unfold SPollInfo.expire
  split
  · exact hlinked
  · simp only [SPollInfo.detach, hlinked, ite_self]

theorem add_linked (hlinked : s.linked e = none) {timeout : ℕ} (hpos : 0 < timeout) :
    (s.socketTimeoutAdd e timeout).linked e = some (timeoutIndex (wheelDeadline s.now timeout)) := by
  unfold SPollInfo.socketTimeoutAdd
  rw [if_neg (Nat.pos_iff_ne_zero.mp hpos), hlinked]
  exact Function.update_self ..

theorem add_frame (s : SPollInfo) (e timeout : ℕ) : (s.socketTimeoutAdd e timeout).now = s.now ∧
    (s.socketTimeoutAdd e timeout).clockRead = s.clockRead ∧
    (s.socketTimeoutAdd e timeout).timeoutIndex = s.timeoutIndex := by
  unfold SPollInfo.socketTimeoutAdd
  split
  · exact ⟨rfl, rfl, rfl⟩
  split <;> exact ⟨rfl, rfl, rfl⟩

theorem add_other (s : SPollInfo) {e' : ℕ} (he : e ≠ e') (timeout : ℕ) :
    (s.socketTimeoutAdd e' timeout).linked e = s.linked e := by
  unfold SPollInfo.socketTimeoutAdd
  split
  · rfl
  split
  · rfl
  · exact Function.update_of_ne he ..

theorem delete_frame (s : SPollInfo) (e : ℕ) : (s.socketTimeoutDelete e).now = s.now ∧
    (s.socketTimeoutDelete e).clockRead = s.clockRead ∧
    (s.socketTimeoutDelete e).timeoutIndex = s.timeoutIndex := by
  unfold SPollInfo.socketTimeoutDelete
  split <;> exact ⟨rfl, rfl, rfl⟩

theorem delete_other (s : SPollInfo) {e' : ℕ} (he : e ≠ e') : (s.socketTimeoutDelete e').linked e = s.linked e := by
  unfold SPollInfo.socketTimeoutDelete
  split
  · rfl
  · exact Function.update_of_ne he ..

/-- **What a step is for the clock and for an event it is not about.** -/
theorem wheelStep_cases (hother : a.event ≠ some e) (hstep : wheelStep s a = some s') :
    (a = .expire ∧ s.clockRead = true ∧ s' = s.expire) ∨
    (∃ now, a = .clock now ∧ s.clockRead = false ∧ s.now ≤ now ∧ s' = { s with now := now, clockRead := true }) ∨
    (wheelClocks [a] = [] ∧ s'.linked e = s.linked e ∧ s'.now = s.now ∧ s'.clockRead = s.clockRead ∧
      s'.timeoutIndex = s.timeoutIndex) := by
  cases a with
  | add e' timeout =>
    cases hstep
    have he : e ≠ e' := fun he => hother (congrArg some he.symm)
    exact .inr (.inr ⟨rfl, add_other s he timeout, add_frame s e' timeout⟩)
  | delete e' =>
    cases hstep
    have he : e ≠ e' := fun he => hother (congrArg some he.symm)
    exact .inr (.inr ⟨rfl, delete_other s he, delete_frame s e'⟩)
  | clock now =>
    simp only [wheelStep] at hstep
    split at hstep
    next hok =>
      cases hstep
      exact .inr (.inl ⟨now, rfl, hok.1, hok.2, rfl⟩)
    · cases hstep
  | expire =>
    simp only [wheelStep] at hstep
    split at hstep
    next hok =>
      cases hstep
      exact .inl ⟨rfl, hok, rfl⟩
    · cases hstep

end Invariant

/-! ### A timeout is not early -/

/-- The period of 32 seconds in which the list of an event comes up. -/
def wheelPeriod (now timeout : ℕ) : ℕ := wheelDeadline now timeout / socketTimeoutGranularity

/-- **The timeout ends within one turn of the wheel:** less than 64 periods from now, or 64 periods from now when the
list of the current period is not about to be detached. -/
def WithinTurn (s : SPollInfo) (timeout : ℕ) : Prop :=
  wheelPeriod s.now timeout < s.now / socketTimeoutGranularity + socketTimeoutLists ∨
    wheelPeriod s.now timeout = s.now / socketTimeoutGranularity + socketTimeoutLists ∧
      s.timeoutIndex = timeoutIndex s.now

/-- The expiry is about to detach an event. -/
def SPollInfo.Detaches (s : SPollInfo) (e : ℕ) : Prop :=
  s.clockRead = true ∧ s.linked e ≠ none ∧ s.expire.linked e = none

/-- The event is neither added again nor deleted. -/
def Spares (e : ℕ) (_ : SPollInfo) (a : WheelAction) : Prop := a.event ≠ some e

section Early

variable {s s' : SPollInfo} {e i : ℕ}

theorem timeoutIndex_eq (t : ℕ) : timeoutIndex t = t / 32 % 64 := rfl

theorem wheelPeriod_eq (now timeout : ℕ) : wheelPeriod now timeout = (now + timeout / 1000 + 31) / 32 := rfl

theorem timeoutIndex_deadline (now timeout : ℕ) :
    timeoutIndex (wheelDeadline now timeout) = wheelPeriod now timeout % 64 := rfl

/-- An event is detached when the index is new, and that of its list. -/
theorem WheelInv.detaches_iff (h : WheelInv s) (hlinked : s.linked e = some i) :
    s.Detaches e ↔ s.clockRead = true ∧ s.timeoutIndex ≠ timeoutIndex s.now ∧ timeoutIndex s.now = i := by
  unfold SPollInfo.Detaches
  rw [h.expire_linked hlinked, hlinked]
  refine and_congr_right fun _ => ?_
  split
  next hnew => exact iff_of_true ⟨by simp, rfl⟩ hnew
  next hnot => exact iff_of_false (by simp) hnot

/-- **An event that was added at `now` for a timeout,** at any time until it is detached. -/
structure OnWheel (now timeout e : ℕ) (s : SPollInfo) : Prop where
  inv : WheelInv s
  now_le : now ≤ s.now
  linked : ∀ i, s.linked e = some i → i = wheelPeriod now timeout % 64
  /-- the list of the period it was added in is not detached a second time in that period -/
  current : wheelPeriod now timeout = now / 32 + 64 → s.now / 32 = now / 32 → s.timeoutIndex = timeoutIndex s.now

theorem OnWheel.step {now timeout : ℕ} {a : WheelAction} (h : OnWheel now timeout e s) (hother : a.event ≠ some e)
    (hstep : wheelStep s a = some s') : OnWheel now timeout e s' := by
  have hinv := wheelStep_inv h.inv hstep
  have hnow := h.now_le
  obtain ⟨rfl, _, rfl⟩ | ⟨now', rfl, _, hle, rfl⟩ | ⟨_, hlinked, hnow', _, hindex⟩ := wheelStep_cases hother hstep
  · obtain ⟨hnow', _, hindex⟩ := expire_now s
    refine ⟨hinv, by rw [hnow']; exact hnow, fun i hi => ?_, fun _ _ => by rw [hindex, hnow']⟩
    cases hlinked : s.linked e with
    | none =>
      rw [expire_unlinked hlinked] at hi
      cases hi
    | some j =>
      rw [h.inv.expire_linked hlinked] at hi
      split at hi
      · cases hi
      · cases hi
        exact h.linked _ hlinked
  · refine ⟨hinv, Nat.le_trans hnow hle, h.linked, fun hturn hperiod => ?_⟩
    change now' / 32 = now / 32 at hperiod
    have hsame : s.now / 32 = now / 32 :=
      Nat.le_antisymm (hperiod ▸ Nat.div_le_div_right hle) (Nat.div_le_div_right hnow)
    change s.timeoutIndex = now' / 32 % 64
    rw [h.current hturn hsame, timeoutIndex_eq, hsame, hperiod]
  · refine ⟨hinv, by rw [hnow']; exact hnow, fun i hi => h.linked i (hlinked ▸ hi), ?_⟩
    rw [hnow', hindex]
    exact h.current

/-- **Within a turn, the list of an event does not come up before its deadline (proved).** -/
theorem OnWheel.not_early {now timeout : ℕ} (h : OnWheel now timeout e s)
    (hturn : wheelPeriod now timeout ≤ now / 32 + 64) (hdetach : s.Detaches e) : now + timeout / 1000 ≤ s.now := by
  obtain ⟨i, hlinked⟩ := Option.ne_none_iff_exists'.mp hdetach.2.1
  obtain ⟨_, hnew, hindex⟩ := (h.inv.detaches_iff hlinked).mp hdetach
  rw [h.linked i hlinked, timeoutIndex_eq] at hindex
  have hnow := h.now_le
  have hcurrent := h.current
  rw [timeoutIndex_eq] at hnew hcurrent
  simp only [wheelPeriod_eq] at hturn hindex hcurrent
  by_contra hearly
  -- the period of the clock is 64 periods before that of the event, so it is the one the event was added in
  have hperiod : s.now / 32 = now / 32 := by omega
  have hfull : (now + timeout / 1000 + 31) / 32 = now / 32 + 64 := by omega
  exact hnew (hcurrent hfull hperiod)

/-- The poll thread reads the clock: the event is detached, or stays on its list. -/
theorem WheelInv.reads (h : WheelInv s) (hwaits : s.clockRead = false) (hlinked : s.linked e = some i) {now : ℕ}
    (hle : s.now ≤ now) : ∃ s', ReachableVia (enabled wheelStep) (Spares e) s s' ∧ s'.now = now ∧
      s'.clockRead = true ∧ s'.linked e = some i ∧ s'.timeoutIndex = s.timeoutIndex ∧ WheelInv s' := by
  have hstep : wheelStep s (.clock now) = some { s with now := now, clockRead := true } := if_pos ⟨hwaits, hle⟩
  refine ⟨_, .single ?_ hstep, rfl, rfl, hlinked, rfl, wheelStep_inv h hstep⟩
  exact fun heq => by cases heq

/-- The poll thread compares the index: the event stays on its list. -/
theorem WheelInv.passes (h : WheelInv s) (hread : s.clockRead = true) (hlinked : s.linked e = some i)
    (hnot : ¬ s.Detaches e) : ∃ s', ReachableVia (enabled wheelStep) (Spares e) s s' ∧ s'.now = s.now ∧
      s'.clockRead = false ∧ s'.linked e = some i ∧ s'.timeoutIndex = timeoutIndex s.now ∧ WheelInv s' := by
  have hstep : wheelStep s .expire = some s.expire := if_pos hread
  obtain ⟨hnow, hwaits, hindex⟩ := expire_now s
  refine ⟨_, .single ?_ hstep, hnow, hwaits, ?_, hindex, wheelStep_inv h hstep⟩
  · exact fun heq => by cases heq
  · rw [h.expire_linked hlinked, if_neg]
    exact fun hnew => hnot ((h.detaches_iff hlinked).mpr ⟨hread, hnew⟩)

/-- **Beyond a turn, some clock detaches the event early (proved):** the next period, or the one that is 64 periods
before that of the event. -/
theorem WheelInv.early {now timeout : ℕ} (h : WheelInv s) (hnow : s.now = now)
    (hlinked : s.linked e = some (wheelPeriod now timeout % 64)) (hturn : now / 32 + 64 < wheelPeriod now timeout) :
    ∃ s', ReachableVia (enabled wheelStep) (Spares e) s s' ∧ s'.Detaches e ∧ s'.now < now + timeout / 1000 := by
  simp only [wheelPeriod_eq] at hturn
  -- the poll thread comes to wait
  have hwait : (∃ s', ReachableVia (enabled wheelStep) (Spares e) s s' ∧ s'.Detaches e ∧ s'.now < now + timeout / 1000) ∨
      ∃ s', ReachableVia (enabled wheelStep) (Spares e) s s' ∧ s'.now = now ∧ s'.clockRead = false ∧
        s'.linked e = some (wheelPeriod now timeout % 64) ∧ WheelInv s' := by
    by_cases hread : s.clockRead = true
    · by_cases hdetach : s.Detaches e
      · exact .inl ⟨s, .init, hdetach, by omega⟩
      · obtain ⟨s', hrun, hnow', hwaits, hlinked', _, hinv⟩ := h.passes hread hlinked hdetach
        exact .inr ⟨s', hrun, hnow'.trans hnow, hwaits, hlinked', hinv⟩
    · exact .inr ⟨s, .init, hnow, Bool.not_eq_true _ ▸ hread, hlinked, h⟩
  obtain hdone | ⟨s₁, hrun₁, hnow₁, hwaits₁, hlinked₁, hinv₁⟩ := hwait
  · exact hdone
  -- the next period
  have hle₁ : s₁.now ≤ 32 * (now / 32 + 1) := by omega
  obtain ⟨s₂, hrun₂, hnow₂, hread₂, hlinked₂, hindex₂, hinv₂⟩ := hinv₁.reads hwaits₁ hlinked₁ hle₁
  by_cases hdetach : s₂.Detaches e
  · exact ⟨s₂, hrun₁.trans hrun₂, hdetach, by omega⟩
  obtain ⟨s₃, hrun₃, hnow₃, hwaits₃, hlinked₃, hindex₃, hinv₃⟩ := hinv₂.passes hread₂ hlinked₂ hdetach
  -- the period that has the index of the event, one turn too soon
  have hle₃ : s₃.now ≤ 32 * ((now + timeout / 1000 + 31) / 32 - 64) := by omega
  obtain ⟨s₄, hrun₄, hnow₄, hread₄, hlinked₄, hindex₄, hinv₄⟩ := hinv₃.reads hwaits₃ hlinked₃ hle₃
  refine ⟨s₄, ((hrun₁.trans hrun₂).trans hrun₃).trans hrun₄, ?_, by omega⟩
  have hslot : timeoutIndex s₄.now = wheelPeriod now timeout % 64 := by
    rw [hnow₄, timeoutIndex_eq, wheelPeriod_eq]
    omega
  refine (hinv₄.detaches_iff hlinked₄).mpr ⟨hread₄, fun hsame => ?_, hslot⟩
  -- else the next period had this index, and the event was detached there
  refine hdetach ((hinv₂.detaches_iff hlinked₂).mpr ⟨hread₂, ?_, ?_⟩)
  · rw [hindex₂, hinv₁.index hwaits₁, hnow₁, hnow₂, timeoutIndex_eq, timeoutIndex_eq]
    omega
  · rw [← hindex₃, ← hindex₄, hsame, hslot]

/-- **No early timeout (proved):** the expiry never detaches an event before its deadline if, and only if, its timeout
ends within one turn of the wheel. -/
theorem never_early_iff {start timeout : ℕ} (hreach : Reachable (enabled wheelStep) (.sockEngineInit start) s)
    (hfree : s.linked e = none) (hpos : 0 < timeout) :
    (∀ s', ReachableVia (enabled wheelStep) (Spares e) (s.socketTimeoutAdd e timeout) s' → s'.Detaches e →
      s.now + timeout / 1000 ≤ s'.now) ↔ WithinTurn s timeout := by
  have hinv := (wheelInv_of_reachable hreach).add e timeout
  have hlinked := add_linked hfree hpos
  rw [timeoutIndex_deadline] at hlinked
  obtain ⟨hnow, hread, hindex⟩ := add_frame s e timeout
  constructor
  · intro hnever
    by_contra hnot
    obtain ⟨hfar, hcurrent⟩ := not_or.mp hnot
    rcases Nat.lt_or_eq_of_le (Nat.not_lt.mp hfar) with hbeyond | hturn
    · obtain ⟨s', hrun, hdetach, hearly⟩ := hinv.early hnow hlinked hbeyond
      exact absurd (hnever s' hrun hdetach) (Nat.not_le.mpr hearly)
    · -- the list of the current period is about to be detached
      have hnew : s.timeoutIndex ≠ timeoutIndex s.now := fun hsame => hcurrent ⟨hturn.symm, hsame⟩
      have hclock : s.clockRead = true := by
        by_contra hwaits
        exact hnew ((wheelInv_of_reachable hreach).index (Bool.not_eq_true _ ▸ hwaits))
      have hperiod : (s.now + timeout / 1000 + 31) / 32 = s.now / 32 + 64 := hturn.symm
      have hdetach : (s.socketTimeoutAdd e timeout).Detaches e := by
        refine (hinv.detaches_iff hlinked).mpr ⟨hread.trans hclock, ?_, ?_⟩
        · rw [hindex, hnow]
          exact hnew
        · rw [hnow, timeoutIndex_eq, wheelPeriod_eq]
          omega
      have hle := hnever _ .init hdetach
      omega
  · intro hturn s' hrun hdetach
    have hwheel : OnWheel s.now timeout e s' := by
      refine hrun.invariant ⟨hinv, Nat.le_of_eq hnow.symm, fun i hi => ?_, fun hfull _ => ?_⟩
        fun _ _ _ hs hother hstep => hs.step hother hstep
      · rw [hlinked] at hi
        exact (Option.some.inj hi).symm
      · rw [hindex, hnow]
        exact (hturn.resolve_left (Nat.not_lt.mpr (Nat.le_of_eq hfull.symm))).2
    exact hwheel.not_early (hturn.elim Nat.le_of_lt fun hfull => Nat.le_of_eq hfull.1) hdetach

/-- A timeout of 30 seconds. -/
theorem never_early_seconds : WithinTurn (.sockEngineInit 3200) 30000 ∧ ∀ s', ReachableVia (enabled wheelStep)
    (Spares 0) ((SPollInfo.sockEngineInit 3200).socketTimeoutAdd 0 30000) s' → s'.Detaches 0 → 3230 ≤ s'.now := by
  have hturn : WithinTurn (.sockEngineInit 3200) 30000 := .inl (by decide)
  exact ⟨hturn, (never_early_iff .init rfl (by decide)).mpr hturn⟩

/-- **A timeout of an hour ends after 26 minutes.** -/
theorem early_hour : ¬ ∀ (start : ℕ) (s : SPollInfo) (e timeout : ℕ),
    Reachable (enabled wheelStep) (.sockEngineInit start) s → s.linked e = none → 0 < timeout → timeout < 2 ^ 31 →
      ∀ s', ReachableVia (enabled wheelStep) (Spares e) (s.socketTimeoutAdd e timeout) s' → s'.Detaches e →
        s.now + timeout / 1000 ≤ s'.now := by
  intro hnever
  have hstep : wheelStep ((SPollInfo.sockEngineInit 3200).socketTimeoutAdd 0 3600000) (.clock 4768) =
      some { (SPollInfo.sockEngineInit 3200).socketTimeoutAdd 0 3600000 with now := 4768, clockRead := true } := rfl
  have hspares : Spares 0 ((SPollInfo.sockEngineInit 3200).socketTimeoutAdd 0 3600000) (.clock 4768) :=
    fun heq => by cases heq
  have hrun : ReachableVia (enabled wheelStep) (Spares 0) _ _ := .single hspares hstep
  have hle := hnever 3200 _ 0 3600000 .init rfl (by decide) (by decide) _ hrun ⟨rfl, by decide, by decide⟩
  exact absurd hle (by decide)

end Early

/-! ### A timeout is not missed -/

/-- The index comes to be `i`, from another one, on one of these clock values. -/
def ComesTo (i : ℕ) : ℕ → List ℕ → Prop
  | _, [] => False
  | index, now :: clocks => (index ≠ i ∧ timeoutIndex now = i) ∨ ComesTo i (timeoutIndex now) clocks

/-- The clock value that the poll thread has yet to compare. -/
def SPollInfo.pending (s : SPollInfo) : List ℕ := if s.clockRead then [s.now] else []

/-- **The clock is read in time:** in the 32 seconds of the deadline, or whole turns of the wheel after them; when these
are the current 32 seconds, their list is about to be detached, or its index comes again. -/
def InTime (s : SPollInfo) (timeout : ℕ) (clocks : List ℕ) (last : ℕ) : Prop :=
  if wheelPeriod s.now timeout = s.now / socketTimeoutGranularity then
    s.timeoutIndex ≠ timeoutIndex s.now ∨ ComesTo (timeoutIndex s.now) (timeoutIndex s.now) (clocks ++ [last])
  else
    (∃ now ∈ clocks, now / socketTimeoutGranularity = wheelPeriod s.now timeout) ∨
      ∃ turns, last / socketTimeoutGranularity = wheelPeriod s.now timeout + socketTimeoutLists * (turns + 1)

section Missed

variable {s s' : SPollInfo} {e i : ℕ} {as : List WheelAction}

theorem comesTo_of_ne {index : ℕ} : ∀ {clocks : List ℕ}, index ≠ i →
    (ComesTo i index clocks ↔ ∃ now ∈ clocks, timeoutIndex now = i)
  | [], _ => by simp [ComesTo]
  | now :: clocks, hne => by
    by_cases hnow : timeoutIndex now = i
    · exact iff_of_true (.inl ⟨hne, hnow⟩) ⟨now, List.mem_cons_self, hnow⟩
    · simp only [ComesTo, hnow, and_false, false_or, List.exists_mem_cons_iff]
      exact comesTo_of_ne hnow

/-- The same index again changes nothing. -/
theorem comesTo_same {now : ℕ} {clocks : List ℕ} :
    ComesTo i (timeoutIndex now) (now :: clocks) ↔ ComesTo i (timeoutIndex now) clocks :=
  or_iff_right fun hnew => hnew.1 hnew.2

theorem wheelRun_unlinked : ∀ {as : List WheelAction} {s s' : SPollInfo}, s.linked e = none →
    (∀ a ∈ as, a.event ≠ some e) → runFrom wheelStep s as = some s' → s'.linked e = none
  | [], _, _, hlinked, _, hrun => by
    cases hrun
    exact hlinked
  | a :: as, s, s', hlinked, hother, hrun => by
    obtain ⟨t, hstep, hrest⟩ := Option.bind_eq_some_iff.mp hrun
    refine wheelRun_unlinked ?_ (fun b hb => hother b (List.mem_cons_of_mem _ hb)) hrest
    obtain ⟨rfl, _, rfl⟩ | ⟨_, rfl, _, _, rfl⟩ | ⟨_, hsame, _⟩ :=
      wheelStep_cases (hother a List.mem_cons_self) hstep
    · exact expire_unlinked hlinked
    · exact hlinked
    · exact hsame.trans hlinked

theorem wheelClocks_cons (a : WheelAction) (as : List WheelAction) :
    wheelClocks (a :: as) = wheelClocks [a] ++ wheelClocks as := by
  cases a <;> rfl

/-- **A run detaches an event when the index comes to that of its list (proved).** -/
theorem wheelRun_linked : ∀ {as : List WheelAction} {s s' : SPollInfo}, WheelInv s → s.linked e = some i →
    (∀ a ∈ as, a.event ≠ some e) → runFrom wheelStep s as = some s' → s'.clockRead = false →
      (s'.linked e = none ↔ ComesTo i s.timeoutIndex (s.pending ++ wheelClocks as))
  | [], s, s', _, hlinked, _, hrun, hwaits => by
    cases hrun
    simp [hlinked, SPollInfo.pending, hwaits, wheelClocks, ComesTo]
  | a :: as, s, s', h, hlinked, hother, hrun, hwaits => by
    obtain ⟨t, hstep, hrest⟩ := Option.bind_eq_some_iff.mp hrun
    have hother' : ∀ b ∈ as, b.event ≠ some e := fun b hb => hother b (List.mem_cons_of_mem _ hb)
    have hinv := wheelStep_inv h hstep
    obtain ⟨rfl, hread, rfl⟩ | ⟨now, rfl, hidle, hle, rfl⟩ | ⟨hclocks, hsame, hnow, hread, hindex⟩ :=
      wheelStep_cases (hother a List.mem_cons_self) hstep
    · obtain ⟨_, hidle', hindex⟩ := expire_now s
      have hpending : s.pending ++ wheelClocks (.expire :: as) = s.now :: wheelClocks as := by
        simp [SPollInfo.pending, hread, wheelClocks]
      have hpending' : s.expire.pending = [] := by simp [SPollInfo.pending, hidle']
      rw [hpending]
      by_cases hnew : s.timeoutIndex ≠ timeoutIndex s.now ∧ timeoutIndex s.now = i
      · refine iff_of_true (wheelRun_unlinked ?_ hother' hrest) (.inl ⟨fun heq => hnew.1 ?_, hnew.2⟩)
        · rw [h.expire_linked hlinked, if_pos hnew]
        · rw [heq, hnew.2]
      · have hstays : s.expire.linked e = some i := by rw [h.expire_linked hlinked, if_neg hnew]
        rw [wheelRun_linked hinv hstays hother' hrest hwaits, hpending', hindex, List.nil_append]
        refine (or_iff_right fun hcomes => hnew ⟨fun heq => hcomes.1 ?_, hcomes.2⟩).symm
        rw [heq, hcomes.2]
    · have hpending : s.pending ++ wheelClocks (.clock now :: as) = now :: wheelClocks as := by
        simp [SPollInfo.pending, hidle, wheelClocks]
      rw [wheelRun_linked hinv hlinked hother' hrest hwaits, hpending]
      exact Iff.rfl
    · rw [wheelRun_linked hinv (hsame.trans hlinked) hother' hrest hwaits, wheelClocks_cons, hclocks, hindex]
      simp only [SPollInfo.pending, hnow, hread, List.nil_append]

/-- The clock values of a run do not go back. -/
theorem wheelClocks_ge : ∀ {as : List WheelAction} {s s' : SPollInfo}, (∀ a ∈ as, a.event ≠ some e) →
    runFrom wheelStep s as = some s' → ∀ now ∈ wheelClocks as, s.now ≤ now
  | [], _, _, _, _ => by simp [wheelClocks]
  | a :: as, s, s', hother, hrun => by
    obtain ⟨t, hstep, hrest⟩ := Option.bind_eq_some_iff.mp hrun
    have hge := wheelClocks_ge (fun b hb => hother b (List.mem_cons_of_mem _ hb)) hrest
    intro now hmem
    obtain ⟨rfl, _, rfl⟩ | ⟨_, rfl, _, hle, rfl⟩ | ⟨hclocks, _, hnow, _⟩ :=
      wheelStep_cases (hother a List.mem_cons_self) hstep
    · exact (expire_now s).1 ▸ hge now hmem
    · rcases List.mem_cons.mp hmem with rfl | hmem
      · exact hle
      · exact Nat.le_trans hle (hge now hmem)
    · rw [wheelClocks_cons, hclocks] at hmem
      exact hnow ▸ hge now hmem

/-- **No missed timeout (proved):** a timeout of at most half an hour has been detached, when the poll thread has dealt
with the first clock value from 64 seconds after its deadline on, if, and only if, the clock is read in time. -/
theorem detached_iff {start timeout last : ℕ} {clocks : List ℕ}
    (hreach : Reachable (enabled wheelStep) (.sockEngineInit start) s) (hfree : s.linked e = none)
    (hpos : 0 < timeout) (hmax : timeout ≤ 1800000)
    (hrun : runFrom wheelStep (s.socketTimeoutAdd e timeout) as = some s') (hother : ∀ a ∈ as, a.event ≠ some e)
    (hwaits : s'.clockRead = false) (hclocks : wheelClocks as = clocks ++ [last])
    (hbefore : ∀ now ∈ clocks, now < s.now + timeout / 1000 + 64) (hlast : s.now + timeout / 1000 + 64 ≤ last) :
    s'.linked e = none ↔ InTime s timeout clocks last := by
  have hinv := wheelInv_of_reachable hreach
  have hlinked := add_linked hfree hpos
  obtain ⟨hnow, hread, hindex⟩ := add_frame s e timeout
  have hge := wheelClocks_ge hother hrun
  rw [hclocks, hnow] at hge
  have hpending : (s.socketTimeoutAdd e timeout).pending = s.pending := by
    simp only [SPollInfo.pending, hnow, hread]
  rw [wheelRun_linked (hinv.add e timeout) hlinked hother hrun hwaits, hpending, hindex, hclocks,
    timeoutIndex_deadline]
  unfold InTime
  split
  next hcurrent =>
    -- the list of the current period
    have hslot : wheelPeriod s.now timeout % 64 = timeoutIndex s.now := by
      rw [hcurrent]
      rfl
    rw [hslot]
    cases hclock : s.clockRead with
    | false =>
      have hsame := hinv.index hclock
      rw [or_iff_right (not_not_intro hsame), ← hsame]
      simp [SPollInfo.pending, hclock]
    | true =>
      by_cases hsame : s.timeoutIndex = timeoutIndex s.now
      · rw [or_iff_right (not_not_intro hsame), hsame]
        simp only [SPollInfo.pending, hclock, if_true, List.cons_append, List.nil_append]
        exact comesTo_same
      · refine iff_of_true ?_ (.inl hsame)
        simp only [SPollInfo.pending, hclock, if_true, List.cons_append, List.nil_append]
        exact .inl ⟨hsame, rfl⟩
  next hcurrent =>
    -- a period still to come
    have hperiod : s.now / 32 < wheelPeriod s.now timeout ∧ wheelPeriod s.now timeout < s.now / 32 + 64 := by
      simp only [socketTimeoutGranularity, wheelPeriod_eq] at hcurrent ⊢
      omega
    have hne : timeoutIndex s.now ≠ wheelPeriod s.now timeout % 64 := by
      rw [timeoutIndex_eq]
      omega
    have hreads : ComesTo (wheelPeriod s.now timeout % 64) s.timeoutIndex (s.pending ++ (clocks ++ [last])) ↔
        ∃ now ∈ clocks ++ [last], timeoutIndex now = wheelPeriod s.now timeout % 64 := by
      cases hclock : s.clockRead with
      | false =>
        rw [hinv.index hclock, comesTo_of_ne hne]
        simp [SPollInfo.pending, hclock]
      | true =>
        simp only [SPollInfo.pending, hclock, if_true, List.cons_append, List.nil_append, ComesTo, hne, and_false,
          false_or]
        exact comesTo_of_ne hne
    rw [hreads]
    simp only [List.mem_append, List.mem_singleton, or_and_right, exists_or, exists_eq_left, socketTimeoutGranularity,
      socketTimeoutLists, timeoutIndex_eq]
    refine or_congr (exists_congr fun now => and_congr_right fun hmem => ?_) ⟨fun hsame => ?_, ?_⟩
    · have hlow := hge now (List.mem_append_left _ hmem)
      have hhigh := hbefore now hmem
      rw [wheelPeriod_eq] at hperiod ⊢
      omega
    · rw [wheelPeriod_eq] at hperiod hsame ⊢
      exact ⟨(last / 32 - (s.now + timeout / 1000 + 31) / 32) / 64 - 1, by omega⟩
    · rintro ⟨turns, hturns⟩
      omega

/-- A timeout of 30 seconds, and a clock that is read in its period. -/
theorem detached_seconds : ∃ s', runFrom wheelStep ((SPollInfo.sockEngineInit 3200).socketTimeoutAdd 0 30000)
    [.clock 3210, .expire, .clock 3232, .expire, .clock 3300, .expire] = some s' ∧ s'.linked 0 = none := by
  obtain ⟨s', hrun, hwaits⟩ : ∃ s', runFrom wheelStep ((SPollInfo.sockEngineInit 3200).socketTimeoutAdd 0 30000)
      [.clock 3210, .expire, .clock 3232, .expire, .clock 3300, .expire] = some s' ∧ s'.clockRead = false :=
    ⟨_, rfl, rfl⟩
  have hclocks : wheelClocks [.clock 3210, .expire, .clock 3232, .expire, .clock 3300, .expire] =
      [3210, 3232] ++ [3300] := rfl
  refine ⟨s', hrun, (detached_iff .init rfl (by decide : 0 < 30000) (by decide) hrun (by decide) hwaits hclocks
    (by decide) (by decide)).mpr ?_⟩
  exact .inl ⟨3232, by decide, by decide⟩

/-- **A timeout of half a second is missed at the beginning of a period,** by a clock that is read every 32 seconds. -/
theorem missed_half : ¬ ∀ (start : ℕ) (s s' : SPollInfo) (e timeout : ℕ) (as : List WheelAction) (clocks : List ℕ)
    (last : ℕ), Reachable (enabled wheelStep) (.sockEngineInit start) s → s.linked e = none → 0 < timeout →
      timeout ≤ 1800000 → runFrom wheelStep (s.socketTimeoutAdd e timeout) as = some s' →
      (∀ a ∈ as, a.event ≠ some e) → s'.clockRead = false → wheelClocks as = clocks ++ [last] →
      (∀ now ∈ clocks, now < s.now + timeout / 1000 + 64) → s.now + timeout / 1000 + 64 ≤ last →
      s'.linked e = none := by
  intro hnever
  have hoff := hnever 3200 _ _ 0 500 [.clock 3232, .expire, .clock 3264, .expire] [3232] 3264 .init rfl (by decide)
    (by decide) rfl (by decide) rfl rfl (by decide) (by decide)
  exact absurd hoff (by decide)

/-- A clock that is read every 32 seconds is read in each period. -/
theorem exists_period_of_gaps {period last : ℕ} : ∀ {clocks : List ℕ} {now : ℕ},
    List.IsChain (fun a b => b ≤ a + 32) (now :: (clocks ++ [last])) → now / 32 < period → period < last / 32 →
      ∃ now' ∈ clocks, now' / 32 = period
  | [], now, hgaps, hlow, hhigh => by
    have hgap := (List.isChain_cons_cons.mp hgaps).1
    omega
  | now' :: clocks, now, hgaps, hlow, hhigh => by
    obtain ⟨hgap, hgaps'⟩ := List.isChain_cons_cons.mp hgaps
    by_cases hperiod : now' / 32 = period
    · exact ⟨now', List.mem_cons_self, hperiod⟩
    · obtain ⟨x, hx, hxperiod⟩ := exists_period_of_gaps hgaps' (by omega) hhigh
      exact ⟨x, List.mem_cons_of_mem _ hx, hxperiod⟩

/-- **A loop that reads the clock every 32 seconds is in time (proved),** unless the list of the event is that of the
current 32 seconds. -/
theorem inTime_of_gaps {timeout last : ℕ} {clocks : List ℕ}
    (hgaps : List.IsChain (fun a b => b ≤ a + socketTimeoutGranularity) (s.now :: (clocks ++ [last])))
    (hcurrent : wheelPeriod s.now timeout ≠ s.now / socketTimeoutGranularity)
    (hlast : s.now + timeout / 1000 + 64 ≤ last) : InTime s timeout clocks last := by
  unfold InTime
  rw [if_neg hcurrent]
  simp only [socketTimeoutGranularity, wheelPeriod_eq] at hcurrent ⊢
  exact .inl (exists_period_of_gaps hgaps (by omega) (by omega))

end Missed

end Connio
