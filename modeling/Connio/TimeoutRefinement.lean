import Connio.TimeoutLinks

/-!
# The links of the timeout lists as a timeout wheel

The pointers of `TimeoutLinks` do for each poll thread what the lists of `TimeoutWheel` do (`sockunix.c`).  A poll thread
that has detached a slot then completes its events, which it follows by `async.next`; in the meantime they may be
completed and added again, and the other poll thread may detach them.

* `TimeoutThreads`, `threadStep` — the slots and the events, with the two loops of the two poll threads;
* `WheelOf` — a wheel that has the lists, the clock and the index of a poll thread;
* `WheelOf.step` — **PROVED**: a step of the pointers is one of the wheel, or leaves it as it is;
* `WheelOf.run`, `exists_wheelOf` — **PROVED**: a run of the pointers is one of the wheel;
* `TimeoutThreads.Awaited`, `awaited_step` — the events that a poll thread will still complete; **PROVED**: an event
  becomes one only when its slot is detached;
* `expire_not_early` — **PROVED**: so no event that is not awaited is taken off its slot, or given `ETIMEDOUT`, before its
  deadline, within one turn of the wheel.
-/

namespace Connio

open Connio.Lib

/-! ### The poll threads -/

/-- The slots and the events, and where the poll threads are. -/
structure TimeoutThreads where
  events : TimeoutEvents
  /-- a poll thread has set `now`, and has not yet compared the index -/
  clockRead : PollWheel → Bool := fun _ => false
  /-- `event` of the second loop -/
  cursor : PollWheel → Option ℕ := fun _ => none
  /-- its `next`, once it has been read -/
  next : PollWheel → Option (Option ℕ) := fun _ => none

inductive ThreadAction where
  /-- an operation on the lists; `clock` and `expire` are those of a poll thread -/
  | lists (a : TimeoutAction)
  /-- the second loop reads `event->async.next` -/
  | readNext (poll : PollWheel)
  /-- it sets `ETIMEDOUT` and calls `SocketEventComplete`, under the lock of the socket -/
  | timeOut (poll : PollWheel)

/-- The event an operation is about. -/
def TimeoutAction.event : TimeoutAction → Option ℕ
  | link e _ | enter e | add _ e _ | complete e => some e
  | clock _ _ | expire _ _ => none

/-- The event an action completes, adds, enters or links. -/
def ThreadAction.event (s : TimeoutThreads) : ThreadAction → Option ℕ
  | lists a => a.event
  | readNext _ => none
  | timeOut poll => s.cursor poll

/-- An operation on the lists, with where its poll thread is then. -/
def listsStep (s : TimeoutThreads) (a : TimeoutAction) : Option TimeoutThreads :=
  match a with
  | .clock poll now =>
    if s.clockRead poll = false ∧ s.cursor poll = none ∧ s.events.now poll ≤ now then
      (timeoutStep s.events a).map fun t => { s with events := t, clockRead := Function.update s.clockRead poll true }
    else none
  | .expire poll fuel =>
    if s.clockRead poll = true then
      (s.events.expire poll fuel).map fun r => { s with
        events := r.2
        clockRead := Function.update s.clockRead poll false
        cursor := Function.update s.cursor poll r.1
        next := Function.update s.next poll none }
    else none
  | _ => (timeoutStep s.events a).map fun t => { s with events := t }

/-- **One step.**  A poll thread reads the clock, which does not go back, detaches a slot, and completes what it has
detached. -/
def threadStep (s : TimeoutThreads) : ThreadAction → Option TimeoutThreads
  | .lists a => listsStep s a
  | .readNext poll =>
    if s.next poll = none then
      (s.cursor poll).map fun e => { s with next := Function.update s.next poll (some (s.events.asyncNext e)) }
    else none
  | .timeOut poll =>
    (s.cursor poll).bind fun e => (s.next poll).map fun next => { s with
      events := (s.events.socketEventComplete e).2
      cursor := Function.update s.cursor poll next
      next := Function.update s.next poll none }

/-- No event is added with a negative timeout. -/
def NotNegative (_ : TimeoutThreads) : ThreadAction → Prop
  | .lists (.add _ _ timeout) => 0 ≤ timeout
  | _ => True

/-- **A wheel with the lists, the clock and the index of a poll thread.** -/
structure WheelOf (poll : PollWheel) (s : TimeoutThreads) (l : PollWheel × ℤ → List ℕ) (w : SPollInfo) : Prop where
  sound : TimeoutsSound s.events l
  inv : WheelInv w
  now : s.events.now poll = w.now
  index : s.events.timeoutIndex poll = w.timeoutIndex
  clockRead : s.clockRead poll = w.clockRead
  list : ∀ i : ℕ, l (poll, i) = w.timeoutList i
  /-- its slots are those of the wheel -/
  slot : ∀ e z, e ∈ l (poll, z) → 0 ≤ z

/-! ### The frames of the functions -/

section Frames

variable (s : TimeoutEvents)

theorem socketTimeoutAdd_frame (poll : PollWheel) (e : ℕ) (timeout : ℤ) :
    (s.socketTimeoutAdd poll e timeout).now = s.now ∧
      (s.socketTimeoutAdd poll e timeout).timeoutIndex = s.timeoutIndex := by
  unfold TimeoutEvents.socketTimeoutAdd
  split <;> exact ⟨rfl, rfl⟩

theorem socketEventComplete_frame (e : ℕ) :
    (s.socketEventComplete e).2.now = s.now ∧ (s.socketEventComplete e).2.timeoutIndex = s.timeoutIndex := by
  have hdeleted : (if s.pending e = true then s.socketTimeoutDelete e else s).now = s.now ∧
      (if s.pending e = true then s.socketTimeoutDelete e else s).timeoutIndex = s.timeoutIndex := by
    split <;> exact ⟨rfl, rfl⟩
  have hleft : ∀ u : TimeoutEvents, u.now = s.now ∧ u.timeoutIndex = s.timeoutIndex →
      (if u.inEngine e = true then (true, { u with inEngine := Function.update u.inEngine e false })
        else (false, u)).2.now = s.now ∧
      (if u.inEngine e = true then (true, { u with inEngine := Function.update u.inEngine e false })
        else (false, u)).2.timeoutIndex = s.timeoutIndex := by
    intro u hu
    split <;> exact hu
  exact hleft _ hdeleted

theorem socketEventComplete_asyncNext (e : ℕ) : (s.socketEventComplete e).2.asyncNext = s.asyncNext := by
  have hdeleted : (if s.pending e = true then s.socketTimeoutDelete e else s).asyncNext = s.asyncNext := by
    split <;> rfl
  have hleft : ∀ u : TimeoutEvents, u.asyncNext = s.asyncNext →
      (if u.inEngine e = true then (true, { u with inEngine := Function.update u.inEngine e false })
        else (false, u)).2.asyncNext = s.asyncNext := by
    intro u hu
    split <;> exact hu
  exact hleft _ hdeleted

variable {s} {t : TimeoutEvents}

theorem detachLoop_frame : ∀ {fuel : ℕ} {cursor : Option ℕ} {s : TimeoutEvents},
    TimeoutEvents.detachLoop fuel cursor s = some t → t.now = s.now ∧ t.timeoutIndex = s.timeoutIndex := by
  intro fuel
  induction fuel with
  | zero =>
    intro cursor s hloop
    cases cursor with
    | none =>
      cases hloop
      exact ⟨rfl, rfl⟩
    | some e => cases hloop
  | succ fuel ih =>
    intro cursor s hloop
    cases cursor with
    | none =>
      cases hloop
      exact ⟨rfl, rfl⟩
    | some e => exact ih (s := s.detachOne e) hloop

/-- An expiry sets the index of its wheel. -/
theorem expire_wheel_frame {poll : PollWheel} {fuel : ℕ} (hstep : timeoutStep s (.expire poll fuel) = some t) :
    t.now = s.now ∧ t.timeoutIndex = Function.update s.timeoutIndex poll (s.dueSlot poll).2 := by
  simp only [timeoutStep, TimeoutEvents.expire] at hstep
  split at hstep
  next =>
    rw [Option.map_map, Option.map_eq_some_iff] at hstep
    obtain ⟨u, hloop, hu⟩ := hstep
    obtain ⟨hnow, hindex⟩ := detachLoop_frame hloop
    cases hu
    exact ⟨hnow, hindex⟩
  next hsame =>
    cases hstep
    rw [← not_not.mp hsame, Function.update_eq_self]
    exact ⟨rfl, rfl⟩

end Frames

/-! ### A step -/

section Step

variable {poll : PollWheel} {s t : TimeoutThreads} {l l' : PollWheel × ℤ → List ℕ} {w : SPollInfo} {e : ℕ}

/-- An event is on a list of the wheel when it is on the slot with its index. -/
theorem WheelOf.linked_iff (h : WheelOf poll s l w) (i : ℕ) :
    w.linked e = some i ↔ s.events.lists.home e = some (poll, (i : ℤ)) := by
  rw [h.inv.linked, ← h.list, h.sound.lists.home]

/-- An event is on no list of the wheel when it is on no slot, or on one of the other wheel. -/
theorem WheelOf.linked_none (h : WheelOf poll s l w) :
    w.linked e = none ↔ ∀ z, s.events.lists.home e ≠ some (poll, z) := by
  constructor
  · intro hnone z hhome
    obtain ⟨i, rfl⟩ := Int.eq_ofNat_of_zero_le (h.slot e z ((h.sound.lists.home _ _).mp hhome))
    rw [(h.linked_iff i).mpr hhome] at hnone
    cases hnone
  · intro hhome
    cases hlinked : w.linked e with
    | none => rfl
    | some i => exact absurd ((h.linked_iff i).mp hlinked) (hhome i)

/-- The slot of a timeout is the list it has on the wheel. -/
theorem WheelOf.slotOf_eq (h : WheelOf poll s l w) (timeout : ℕ) :
    s.events.slotOf poll timeout = (poll, (timeoutIndex (wheelDeadline w.now timeout) : ℤ)) := by
  have hdeadline : s.events.now poll + (timeout : ℤ).tdiv 1000 + (socketTimeoutGranularity - 1 : ℤ) =
      (wheelDeadline w.now timeout : ℕ) := by
    have hdiv : (timeout : ℤ).tdiv 1000 = (timeout / 1000 : ℕ) :=
      (Int.tdiv_eq_ediv_of_nonneg (Int.natCast_nonneg timeout)).trans (Int.natCast_ediv timeout 1000).symm
    rw [h.now, hdiv]
    simp only [wheelDeadline, socketTimeoutGranularity]
    omega
  unfold TimeoutEvents.slotOf
  rw [hdeadline, timeoutSlot_natCast]

/-- The slot of the clock is that of the wheel. -/
theorem WheelOf.dueSlot_eq (h : WheelOf poll s l w) :
    s.events.dueSlot poll = (poll, (timeoutIndex w.now : ℤ)) := by
  unfold TimeoutEvents.dueSlot
  rw [h.now, timeoutSlot_natCast]

/-- A step that leaves the wheel as it is. -/
theorem WheelOf.keep (h : WheelOf poll s l w) (hsound : TimeoutsSound t.events l')
    (hnow : t.events.now poll = s.events.now poll) (hindex : t.events.timeoutIndex poll = s.events.timeoutIndex poll)
    (hread : t.clockRead poll = s.clockRead poll) (hlist : ∀ z, l' (poll, z) = l (poll, z)) : WheelOf poll t l' w where
  sound := hsound
  inv := h.inv
  now := hnow.trans h.now
  index := hindex.trans h.index
  clockRead := hread.trans h.clockRead
  list i := (hlist i).trans (h.list i)
  slot e z hmem := h.slot e z (hlist z ▸ hmem)

/-- The lists of the wheel after one of them has changed. -/
theorem WheelOf.update_list (h : WheelOf poll s l w) (i : ℕ) (m : List ℕ) (j : ℕ) :
    Function.update l (poll, (i : ℤ)) m (poll, (j : ℤ)) = Function.update w.timeoutList i m j := by
  by_cases hj : j = i
  · rw [hj, Function.update_self, Function.update_self]
  · have hne : (poll, (j : ℤ)) ≠ (poll, (i : ℤ)) := fun heq => hj (Int.ofNat_inj.mp (Prod.mk.inj heq).2)
    rw [Function.update_of_ne hne, Function.update_of_ne hj]
    exact h.list j

/-- The slots of the wheel after one of them has changed. -/
theorem WheelOf.update_slot (h : WheelOf poll s l w) (i : ℕ) (m : List ℕ) (e : ℕ) (z : ℤ)
    (hmem : e ∈ Function.update l (poll, (i : ℤ)) m (poll, z)) : 0 ≤ z := by
  by_cases hz : z = i
  · rw [hz]
    exact Int.natCast_nonneg i
  · have hne : (poll, z) ≠ (poll, (i : ℤ)) := fun heq => hz (Prod.mk.inj heq).2
    rw [Function.update_of_ne hne] at hmem
    exact h.slot e z hmem

/-- **An event is put on the wheel (proved)** when it has been on no slot. -/
theorem WheelOf.added (h : WheelOf poll s l w) (timeout : ℕ)
    (hadds : (timeout : ℤ) ≠ 0 ∧ s.events.listen e = false) (hhome : s.events.lists.home e = none)
    (ht : t = { s with events := s.events.socketTimeoutAdd poll e timeout }) :
    ∃ l', WheelOf poll t l' (w.socketTimeoutAdd e timeout) := by
  subst ht
  have hnone : w.linked e = none := h.linked_none.mpr fun z => by simp [hhome]
  have hsound := h.sound.added poll hadds hhome
  rw [h.slotOf_eq, h.list] at hsound
  obtain ⟨hnow, hindex⟩ := socketTimeoutAdd_frame s.events poll e timeout
  obtain ⟨hnow', hread', hindex'⟩ := add_frame w e timeout
  refine ⟨_, hsound, h.inv.add e timeout, ?_, ?_, ?_, fun j => ?_, h.update_slot _ _⟩
  · rw [hnow']
    exact (congrFun hnow poll).trans h.now
  · rw [hindex']
    exact (congrFun hindex poll).trans h.index
  · rw [hread']
    exact h.clockRead
  · rw [h.update_list]
    unfold SPollInfo.socketTimeoutAdd
    rw [if_neg (fun hzero => hadds.1 (congrArg Nat.cast hzero)), hnone]
    rfl

/-- **An event is taken off the wheel (proved),** if it is on it. -/
theorem WheelOf.completed (h : WheelOf poll s l w) (hevents : t.events = (s.events.socketEventComplete e).2)
    (hread : t.clockRead = s.clockRead) :
    WheelOf poll t (fun slot => (l slot).erase e) (w.socketTimeoutDelete e) := by
  obtain ⟨hnow, hindex⟩ := socketEventComplete_frame s.events e
  obtain ⟨hnow', hread', hindex'⟩ := delete_frame w e
  refine ⟨?_, h.inv.delete e, ?_, ?_, ?_, fun j => ?_, fun x z hmem => ?_⟩
  · rw [hevents]
    exact h.sound.complete e
  · rw [hevents, hnow']
    exact (congrFun hnow poll).trans h.now
  · rw [hevents, hindex']
    exact (congrFun hindex poll).trans h.index
  · rw [hread, hread']
    exact h.clockRead
  · have hnodup := h.sound.lists.nodup (poll, j)
    show (l (poll, j)).erase e = _
    rw [h.list] at hnodup ⊢
    unfold SPollInfo.socketTimeoutDelete
    cases hlinked : w.linked e with
    | none =>
      refine List.erase_of_not_mem fun hmem => ?_
      rw [← h.inv.linked, hlinked] at hmem
      cases hmem
    | some i =>
      show _ = Function.update w.timeoutList i ((w.timeoutList i).filter (· ≠ e)) j
      by_cases hj : j = i
      · rw [hj] at hnodup ⊢
        rw [Function.update_self, hnodup.erase_eq_filter]
        simp only [ne_eq, decide_not]
        rfl
      · rw [Function.update_of_ne hj]
        refine List.erase_of_not_mem fun hmem => hj ?_
        rw [← h.inv.linked, hlinked] at hmem
        exact (Option.some.inj hmem).symm
  · exact h.slot x z (List.mem_of_mem_erase hmem)

/-- **A slot of the wheel is expired (proved).** -/
theorem WheelOf.expired (h : WheelOf poll s l w) {fuel : ℕ}
    (hstep : timeoutStep s.events (.expire poll fuel) = some t.events)
    (hread : t.clockRead = Function.update s.clockRead poll false) :
    ∃ l', WheelOf poll t l' w.expire := by
  obtain ⟨hnow, hindex⟩ := expire_wheel_frame hstep
  obtain ⟨hnow', hread', hindex'⟩ := expire_now w
  have hclock : t.events.now poll = w.expire.now := by
    rw [hnow', hnow]
    exact h.now
  have hslot : t.events.timeoutIndex poll = w.expire.timeoutIndex := by
    rw [hindex', hindex, Function.update_self, h.dueSlot_eq]
  have hread : t.clockRead poll = w.expire.clockRead := by
    rw [hread, hread', Function.update_self]
  rcases h.sound.expired hstep with ⟨hnew, hsound⟩ | ⟨hsame, hkept⟩
  · rw [h.index, h.dueSlot_eq] at hnew
    rw [h.dueSlot_eq] at hsound
    have hne : ¬ w.timeoutIndex = timeoutIndex w.now := fun heq => hnew (congrArg Nat.cast heq)
    refine ⟨_, hsound, h.inv.expire, hclock, hslot, hread, fun j => ?_, h.update_slot _ _⟩
    rw [h.update_list]
    unfold SPollInfo.expire
    rw [if_neg hne]
    rfl
  · rw [h.index, h.dueSlot_eq] at hsame
    have heq : w.timeoutIndex = timeoutIndex w.now := Int.ofNat_inj.mp hsame
    refine ⟨l, hkept ▸ h.sound, h.inv.expire, hclock, hslot, hread, fun j => ?_, h.slot⟩
    unfold SPollInfo.expire
    rw [if_pos heq]
    exact h.list j

/-- What a step that is about an event, or about none, may do to the wheel: nothing, or one step about the same event. -/
def WheelMoves (event : Option ℕ) (w w' : SPollInfo) : Prop :=
  w' = w ∨ ∃ b, wheelStep w b = some w' ∧ ∀ e, b.event = some e → event = some e

/-- An add at a poll thread. -/
theorem WheelOf.step_add (h : WheelOf poll s l w) {p : PollWheel} {timeout : ℤ} (hpos : 0 ≤ timeout)
    (ht : t = { s with events := s.events.socketTimeoutAdd p e timeout }) :
    ∃ l' w', WheelOf poll t l' w' ∧ WheelMoves (some e) w w' := by
  obtain ⟨m, rfl⟩ := Int.eq_ofNat_of_zero_le hpos
  obtain ⟨hnow, hindex⟩ := socketTimeoutAdd_frame s.events p e m
  by_cases hnew : ((m : ℤ) ≠ 0 ∧ s.events.listen e = false) ∧ s.events.lists.home e = none
  · obtain ⟨hadds, hhome⟩ := hnew
    by_cases hp : p = poll
    · subst hp
      obtain ⟨l', hl'⟩ := h.added m hadds hhome ht
      exact ⟨l', _, hl', .inr ⟨.add e m, rfl, fun _ he => he⟩⟩
    · -- the event goes on a slot of the other wheel
      subst ht
      refine ⟨_, w, h.keep (h.sound.added p hadds hhome) (congrFun hnow poll) (congrFun hindex poll) rfl fun z => ?_,
        .inl rfl⟩
      exact Function.update_of_ne (fun heq => hp (Prod.mk.inj heq).1.symm) ..
  · subst ht
    have hsound := h.sound.add_same p fun hadds hhome => hnew ⟨hadds, hhome⟩
    exact ⟨l, w, h.keep hsound (congrFun hnow poll) (congrFun hindex poll) rfl fun _ => rfl, .inl rfl⟩

/-- A poll thread reads the clock. -/
theorem WheelOf.step_clock (h : WheelOf poll s l w) {p : PollWheel} {now : ℤ}
    (hstep : listsStep s (.clock p now) = some t) : ∃ l' w', WheelOf poll t l' w' ∧ WheelMoves none w w' := by
  simp only [listsStep] at hstep
  split at hstep
  next hturn =>
    cases hstep
    obtain ⟨hfree, _, hle⟩ := hturn
    have hsound : TimeoutsSound { s.events with now := Function.update s.events.now p now } l :=
      h.sound.keep rfl rfl rfl
    by_cases hp : p = poll
    · subst hp
      rw [h.clockRead] at hfree
      rw [h.now] at hle
      obtain ⟨m, rfl⟩ := Int.eq_ofNat_of_zero_le (Int.le_trans (Int.natCast_nonneg _) hle)
      have hclock : wheelStep w (.clock m) = some { w with now := m, clockRead := true } :=
        if_pos ⟨hfree, Int.ofNat_le.mp hle⟩
      refine ⟨l, _, ⟨hsound, wheelStep_inv h.inv hclock, Function.update_self .., h.index, Function.update_self ..,
        h.list, h.slot⟩, .inr ⟨_, hclock, fun _ he => by cases he⟩⟩
    · have hne : poll ≠ p := Ne.symm hp
      exact ⟨l, w, h.keep hsound (Function.update_of_ne hne ..) rfl (Function.update_of_ne hne ..) fun _ => rfl,
        .inl rfl⟩
  next => cases hstep

/-- An operation that is no expiry does not move the second loops. -/
theorem listsStep_frame {a : TimeoutAction} (hstep : listsStep s a = some t) (ha : ∀ p fuel, a ≠ .expire p fuel) :
    timeoutStep s.events a = some t.events ∧ t.cursor = s.cursor ∧ t.next = s.next := by
  have hplain : ∀ {b}, (timeoutStep s.events b).map (fun u => { s with events := u }) = some t →
      timeoutStep s.events b = some t.events ∧ t.cursor = s.cursor ∧ t.next = s.next := by
    intro b hb
    obtain ⟨u, hu, ht⟩ := Option.map_eq_some_iff.mp hb
    subst ht
    exact ⟨hu, rfl, rfl⟩
  cases a with
  | clock p now =>
    simp only [listsStep] at hstep
    split at hstep
    · obtain ⟨u, hu, ht⟩ := Option.map_eq_some_iff.mp hstep
      subst ht
      exact ⟨hu, rfl, rfl⟩
    · cases hstep
  | expire p fuel => exact absurd rfl (ha p fuel)
  | link | enter | add | complete => exact hplain hstep

/-- An expiry with what it detaches. -/
theorem listsStep_expire {p : PollWheel} {fuel : ℕ} (hstep : listsStep s (.expire p fuel) = some t) :
    s.clockRead p = true ∧ ∃ head, s.events.expire p fuel = some (head, t.events) ∧
      t.clockRead = Function.update s.clockRead p false ∧ t.cursor = Function.update s.cursor p head ∧
      t.next = Function.update s.next p none := by
  simp only [listsStep] at hstep
  split at hstep
  next hread =>
    obtain ⟨⟨head, u⟩, hexpire, ht⟩ := Option.map_eq_some_iff.mp hstep
    subst ht
    exact ⟨hread, head, hexpire, rfl, rfl, rfl⟩
  next => cases hstep

theorem timeoutStep_expire {s u : TimeoutEvents} {p : PollWheel} {fuel : ℕ} {head : Option ℕ}
    (h : s.expire p fuel = some (head, u)) : timeoutStep s (.expire p fuel) = some u := by
  simp only [timeoutStep, h, Option.map_some]

/-- A poll thread expires a slot. -/
theorem WheelOf.step_expire (h : WheelOf poll s l w) {p : PollWheel} {fuel : ℕ}
    (hstep : listsStep s (.expire p fuel) = some t) : ∃ l' w', WheelOf poll t l' w' ∧ WheelMoves none w w' := by
  obtain ⟨hread, head, hexpire, hclock, _⟩ := listsStep_expire hstep
  have hu := timeoutStep_expire hexpire
  by_cases hp : p = poll
  · subst hp
    obtain ⟨l', hl'⟩ := h.expired hu hclock
    rw [h.clockRead] at hread
    exact ⟨l', _, hl', .inr ⟨.expire, if_pos hread, fun _ he => by cases he⟩⟩
  · have hne : poll ≠ p := Ne.symm hp
    obtain ⟨hnow, hindex⟩ := expire_wheel_frame hu
    have hindex' : t.events.timeoutIndex poll = s.events.timeoutIndex poll := by
      rw [hindex, Function.update_of_ne hne]
    have hread' : t.clockRead poll = s.clockRead poll := by
      rw [hclock, Function.update_of_ne hne]
    rcases h.sound.expired hu with ⟨_, hsound⟩ | ⟨_, heq⟩
    · refine ⟨_, w, h.keep hsound (congrFun hnow poll) hindex' hread' fun z => ?_, .inl rfl⟩
      exact Function.update_of_ne (fun heq => hne (Prod.mk.inj heq).1) ..
    · exact ⟨l, w, h.keep (heq ▸ h.sound) (congrFun hnow poll) hindex' hread' fun _ => rfl, .inl rfl⟩

/-- The second loop completes an event. -/
theorem threadStep_timeOut {p : PollWheel} (hstep : threadStep s (.timeOut p) = some t) :
    ∃ e next, s.cursor p = some e ∧ s.next p = some next ∧ t = { s with
      events := (s.events.socketEventComplete e).2
      cursor := Function.update s.cursor p next
      next := Function.update s.next p none } := by
  obtain ⟨e, he, hstep⟩ := Option.bind_eq_some_iff.mp hstep
  obtain ⟨next, hnext, ht⟩ := Option.map_eq_some_iff.mp hstep
  exact ⟨e, next, he, hnext, ht.symm⟩

theorem threadStep_readNext {p : PollWheel} (hstep : threadStep s (.readNext p) = some t) :
    ∃ e, s.cursor p = some e ∧ t = { s with next := Function.update s.next p (some (s.events.asyncNext e)) } := by
  simp only [threadStep] at hstep
  split at hstep
  · obtain ⟨e, he, ht⟩ := Option.map_eq_some_iff.mp hstep
    exact ⟨e, he, ht.symm⟩
  · cases hstep

/-- **A step of the pointers is one of the wheel, or leaves it as it is (proved).** -/
theorem WheelOf.step (h : WheelOf poll s l w) {a : ThreadAction} (hok : NotNegative s a)
    (hstep : threadStep s a = some t) : ∃ l' w', WheelOf poll t l' w' ∧ WheelMoves (a.event s) w w' := by
  cases a with
  | readNext p =>
    obtain ⟨_, _, rfl⟩ := threadStep_readNext hstep
    exact ⟨l, w, h.keep h.sound rfl rfl rfl fun _ => rfl, .inl rfl⟩
  | timeOut p =>
    obtain ⟨event, next, hcursor, _, rfl⟩ := threadStep_timeOut hstep
    exact ⟨_, _, h.completed rfl rfl, .inr ⟨.delete event, rfl, fun _ he => hcursor.trans he⟩⟩
  | lists a =>
    cases a with
    | link event listen =>
      obtain ⟨u, hu, rfl⟩ := Option.map_eq_some_iff.mp hstep
      obtain ⟨rfl, hsound⟩ := h.sound.link hu
      exact ⟨l, w, h.keep hsound rfl rfl rfl fun _ => rfl, .inl rfl⟩
    | enter event =>
      cases hstep
      exact ⟨l, w, h.keep (h.sound.keep rfl rfl rfl) rfl rfl rfl fun _ => rfl, .inl rfl⟩
    | add p event timeout =>
      cases hstep
      exact h.step_add hok rfl
    | complete event =>
      cases hstep
      exact ⟨_, _, h.completed rfl rfl, .inr ⟨.delete event, rfl, fun _ he => he⟩⟩
    | clock p now => exact h.step_clock hstep
    | expire p fuel => exact h.step_expire hstep

end Step

/-! ### What a poll thread will still complete -/

/-- **An event that a poll thread will still complete:** that of its second loop, the next one it has read, and what
follows them by `async.next`. -/
inductive TimeoutThreads.Awaited (s : TimeoutThreads) : ℕ → Prop
  | cursor {poll : PollWheel} {e : ℕ} (h : s.cursor poll = some e) : s.Awaited e
  | next {poll : PollWheel} {e : ℕ} (h : s.next poll = some (some e)) : s.Awaited e
  | follow {e e' : ℕ} (h : s.Awaited e) (hnext : s.events.asyncNext e = some e') : s.Awaited e'

section Awaited

variable {s t : TimeoutThreads} {l : PollWheel × ℤ → List ℕ} {e : ℕ} {a : ThreadAction}

/-- An expiry detaches the event. -/
def Detaches (s : TimeoutThreads) (l : PollWheel × ℤ → List ℕ) (a : ThreadAction) (e : ℕ) : Prop :=
  ∃ poll fuel, a = .lists (.expire poll fuel) ∧ s.events.timeoutIndex poll ≠ (s.events.dueSlot poll).2 ∧
    e ∈ l (s.events.dueSlot poll)

/-- The chain of an expiry, and the events that are not on it. -/
theorem TimeoutsSound.expire_chain {s u : TimeoutEvents} (h : TimeoutsSound s l) {poll : PollWheel} {fuel : ℕ}
    {head : Option ℕ} (hstep : s.expire poll fuel = some (head, u)) :
    (head = none ∧ u = s) ∨
      (s.timeoutIndex poll ≠ (s.dueSlot poll).2 ∧ head = (l (s.dueSlot poll)).head? ∧
        Chained u.asyncNext (l (s.dueSlot poll)) ∧ ∀ e, e ∉ l (s.dueSlot poll) → u.asyncNext e = s.asyncNext e) := by
  unfold TimeoutEvents.expire at hstep
  split at hstep
  next hnew =>
    obtain ⟨v, hloop, hv⟩ := Option.map_eq_some_iff.mp hstep
    obtain ⟨rfl, rfl⟩ := Prod.mk.inj hv
    have hhead := h.lists.head (s.dueSlot poll)
    obtain ⟨v', hloop', hdetached⟩ := detachLoop_spec (l (s.dueSlot poll)) (s := s.takeSlot poll)
      (chained_of_linked (h.lists.linked (s.dueSlot poll))) (h.lists.nodup _) (Nat.le_max_left _ fuel)
    rw [hhead] at hloop
    have heq : v' = v := Option.some.inj (hloop'.symm.trans (detachLoop_mono (Nat.le_max_right ..) hloop))
    subst heq
    exact .inr ⟨hnew, hhead, hdetached.chain, fun e he => (hdetached.outside e he).2.2.2.2⟩
  next =>
    cases hstep
    exact .inl ⟨rfl, rfl⟩

/-- Only an expiry changes `async.next`. -/
theorem timeoutStep_asyncNext {s u : TimeoutEvents} {a : TimeoutAction} (hstep : timeoutStep s a = some u)
    (ha : ∀ poll fuel, a ≠ .expire poll fuel) : u.asyncNext = s.asyncNext := by
  cases a with
  | link event listen =>
    simp only [timeoutStep] at hstep
    split at hstep <;> cases hstep
    rfl
  | enter event | clock poll now =>
    cases hstep
    rfl
  | add poll event timeout =>
    cases hstep
    show (s.socketTimeoutAdd poll event timeout).asyncNext = s.asyncNext
    unfold TimeoutEvents.socketTimeoutAdd
    split <;> rfl
  | complete event =>
    cases hstep
    exact socketEventComplete_asyncNext s event
  | expire poll fuel => exact absurd rfl (ha poll fuel)

/-- What a poll thread has after one of them has gone on. -/
theorem update_eq_some {β : Type} {f : PollWheel → Option β} {p q : PollWheel} {v : Option β} {y : β}
    (h : Function.update f p v q = some y) : v = some y ∨ f q = some y := by
  by_cases hq : q = p
  · subst hq
    rw [Function.update_self] at h
    exact .inl h
  · rw [Function.update_of_ne hq] at h
    exact .inr h

/-- **An event is awaited when it was, or when its slot is detached (proved).** -/
theorem awaited_step (hl : TimeoutsSound s.events l) (hstep : threadStep s a = some t) (h : t.Awaited e) :
    s.Awaited e ∨ Detaches s l a e := by
  have hsame : ∀ {x : ℕ}, (∀ poll y, t.cursor poll = some y → s.Awaited y) →
      (∀ poll y, t.next poll = some (some y) → s.Awaited y) → t.events.asyncNext = s.events.asyncNext →
      t.Awaited x → s.Awaited x := by
    intro x hcursor hnext hasync hx
    induction hx with
    | cursor hy => exact hcursor _ _ hy
    | next hy => exact hnext _ _ hy
    | follow _ hy ih => exact .follow ih (hasync ▸ hy)
  cases a with
  | readNext p =>
    obtain ⟨x, hx, rfl⟩ := threadStep_readNext hstep
    refine .inl (hsame (fun _ _ hy => .cursor hy) (fun q y hy => ?_) rfl h)
    rcases update_eq_some hy with hy | hy
    · exact .follow (.cursor hx) (Option.some.inj hy)
    · exact .next hy
  | timeOut p =>
    obtain ⟨x, next, _, hnext, rfl⟩ := threadStep_timeOut hstep
    refine .inl (hsame (fun q y hy => ?_) (fun q y hy => ?_) (socketEventComplete_asyncNext _ _) h)
    · rcases update_eq_some hy with hy | hy
      · exact .next (hnext.trans (congrArg some hy))
      · exact .cursor hy
    · rcases update_eq_some hy with hy | hy
      · cases hy
      · exact .next hy
  | lists a =>
    by_cases ha : ∀ poll fuel, a ≠ .expire poll fuel
    · obtain ⟨hevents, hcursor, hnext⟩ := listsStep_frame hstep ha
      exact .inl (hsame (fun q y hy => .cursor (hcursor ▸ hy)) (fun q y hy => .next (hnext ▸ hy))
        (timeoutStep_asyncNext hevents ha) h)
    · obtain ⟨p, fuel, rfl⟩ : ∃ p fuel, a = .expire p fuel := by simpa using ha
      obtain ⟨_, head, hexpire, _, hcursor, hnext⟩ := listsStep_expire hstep
      -- what is read next was, as the loop of `p` has not read it
      have hread : ∀ q y, t.next q = some (some y) → s.Awaited y := by
        intro q y hy
        rw [hnext] at hy
        rcases update_eq_some hy with hy | hy
        · cases hy
        · exact .next hy
      have hcursor' : ∀ q y, t.cursor q = some y → s.Awaited y ∨ head = some y := by
        intro q y hy
        rw [hcursor] at hy
        exact (update_eq_some hy).symm.imp_left .cursor
      rcases hl.expire_chain hexpire with ⟨hnone, hevents⟩ | ⟨hnew, hhead, hchain, houtside⟩
      · refine .inl (hsame (fun q y hy => (hcursor' q y hy).resolve_right fun hy => ?_) hread
          (congrArg TimeoutEvents.asyncNext hevents) h)
        rw [hnone] at hy
        cases hy
      · have hmem : ∀ {x}, t.Awaited x → s.Awaited x ∨ x ∈ l (s.events.dueSlot p) := by
          intro x hx
          induction hx with
          | cursor hy =>
            refine (hcursor' _ _ hy).imp_right fun hy => ?_
            exact List.mem_of_mem_head? (hhead.symm.trans hy)
          | next hy => exact .inl (hread _ _ hy)
          | @follow x y _ hy ih =>
            by_cases hx : x ∈ l (s.events.dueSlot p)
            · exact .inr (hchain.mem_of_next hx hy)
            · rw [houtside x hx] at hy
              exact .inl (.follow (ih.resolve_right hx) hy)
        exact (hmem h).imp_right fun he => ⟨p, fuel, rfl, hnew, he⟩

end Awaited

/-! ### A run -/

/-- The pointers of a new engine. -/
def TimeoutThreads.start (now : ℤ) (asyncNext : ℕ → Option ℕ) (listen : ℕ → Bool) : TimeoutThreads where
  events := .sockEngineInit now asyncNext listen

/-- An action that is not about the event. -/
def SparesEvent (e : ℕ) (s : TimeoutThreads) (a : ThreadAction) : Prop := NotNegative s a ∧ a.event s ≠ some e

section Run

variable {poll : PollWheel} {s t u : TimeoutThreads} {l : PollWheel × ℤ → List ℕ} {w : SPollInfo}
  {asyncNext : ℕ → Option ℕ} {listen : ℕ → Bool} {start : ℕ} {e : ℕ} {a : ThreadAction}

theorem wheelOf_start (poll : PollWheel) (start : ℕ) (asyncNext : ℕ → Option ℕ) (listen : ℕ → Bool) :
    WheelOf poll (.start start asyncNext listen) (fun _ => []) (.sockEngineInit start) where
  sound := timeoutsSound_init start asyncNext listen
  inv := wheelInv_of_reachable .init
  now := rfl
  index := timeoutSlot_natCast start
  clockRead := rfl
  list _ := rfl
  slot _ _ hmem := absurd hmem List.not_mem_nil

/-- **A run of the pointers is one of the wheel (proved).** -/
theorem WheelOf.run {ok : TimeoutThreads → ThreadAction → Prop} {aok : SPollInfo → WheelAction → Prop}
    (h : WheelOf poll s l w) (hok : ∀ s a, ok s a → NotNegative s a)
    (haok : ∀ s a w b, ok s a → (∀ e, b.event = some e → a.event s = some e) → aok w b)
    (hrun : ReachableVia (enabled threadStep) ok s t) :
    ∃ w', ReachableVia (enabled wheelStep) aok w w' ∧ ∃ l', WheelOf poll t l' w' := by
  refine hrun.simulateRel (R := fun s w => ∃ l, WheelOf poll s l w) (fun s a t w hw hsok hstep => ?_) ⟨l, h⟩
  obtain ⟨l, hl⟩ := hw
  obtain ⟨l', w', hl', hmoves⟩ := hl.step (hok s a hsok) hstep
  rcases hmoves with rfl | ⟨b, hb, hevent⟩
  · exact ⟨w', .init, l', hl'⟩
  · exact ⟨w', .single (haok s a w b hsok hevent) hb, l', hl'⟩

/-- **The pointers of each poll thread are those of a wheel that has run (proved).** -/
theorem exists_wheelOf (poll : PollWheel)
    (h : ReachableVia (enabled threadStep) NotNegative (.start start asyncNext listen) s) :
    ∃ w, Reachable (enabled wheelStep) (.sockEngineInit start) w ∧ ∃ l, WheelOf poll s l w :=
  (wheelOf_start poll start asyncNext listen).run (fun _ _ hok => hok) (fun _ _ _ _ _ _ => trivial) h

/-- An event that is added within a turn of the wheel stays where it was added, for as long as it is on the wheel. -/
theorem WheelInv.stays_onWheel {w w' : SPollInfo} {timeout : ℕ} (h : WheelInv w) (hfree : w.linked e = none)
    (hpos : 0 < timeout) (hturn : wheelPeriod w.now timeout < w.now / 32 + 64)
    (hrun : ReachableVia (enabled wheelStep) (Spares e) (w.socketTimeoutAdd e timeout) w') :
    OnWheel w.now timeout e w' := by
  have hlinked := add_linked hfree hpos
  rw [timeoutIndex_deadline] at hlinked
  obtain ⟨hnow, _, _⟩ := add_frame w e timeout
  refine hrun.invariant ⟨h.add e timeout, Nat.le_of_eq hnow.symm, fun i hi => ?_, fun hfull _ => ?_⟩
    fun _ _ _ hon hother hstep => hon.step hother hstep
  · exact (Option.some.inj (hlinked.symm.trans hi)).symm
  · omega

/-- **An event is not detached before its deadline (proved).** -/
theorem not_detached_early (hreach : ReachableVia (enabled threadStep) NotNegative (.start start asyncNext listen) s)
    (hhome : s.events.lists.home e = none) (hlisten : s.events.listen e = false) {timeout : ℕ} (hpos : 0 < timeout)
    (hmax : timeout < 1986000)
    (hrun : ReachableVia (enabled threadStep) (SparesEvent e)
      { s with events := s.events.socketTimeoutAdd poll e timeout } t)
    {z : ℤ} (hon : t.events.lists.home e = some (poll, z)) {fuel : ℕ}
    (hstep : threadStep t (.lists (.expire poll fuel)) = some u) (hoff : u.events.lists.home e = none) :
    s.events.now poll + (timeout / 1000 : ℕ) ≤ t.events.now poll := by
  obtain ⟨w, hw, l, hl⟩ := exists_wheelOf poll hreach
  have hadds : (timeout : ℤ) ≠ 0 ∧ s.events.listen e = false := ⟨by omega, hlisten⟩
  obtain ⟨l₁, hl₁⟩ := hl.added timeout hadds hhome rfl
  obtain ⟨w', hw', l₂, hl₂⟩ := hl₁.run (fun _ _ hok => hok.1)
    (fun _ _ _ _ hok hevent hb => hok.2 (hevent e hb)) hrun
  have hfree : w.linked e = none := hl.linked_none.mpr fun z => by simp [hhome]
  -- the expiry of the wheel
  obtain ⟨hread, _, hexpire, hclock, _⟩ := listsStep_expire hstep
  obtain ⟨l₃, hl₃⟩ := hl₂.expired (timeoutStep_expire hexpire) hclock
  have hdetach : w'.Detaches e := by
    refine ⟨hl₂.clockRead.symm.trans hread, fun hnone => hl₂.linked_none.mp hnone z hon, ?_⟩
    refine hl₃.linked_none.mpr fun z heq => ?_
    rw [hoff] at heq
    cases heq
  have hturn : wheelPeriod w.now timeout < w.now / 32 + 64 := by
    rw [wheelPeriod_eq]
    omega
  have hle := ((wheelInv_of_reachable hw).stays_onWheel hfree hpos hturn hw').not_early (Nat.le_of_lt hturn) hdetach
  rw [hl.now, hl₂.now]
  exact_mod_cast hle

/-- An event on a slot stays there in a step that is not about it, unless it is detached. -/
theorem mem_step (h : TimeoutsSound s.events l) (hstep : threadStep s a = some t) (hother : a.event s ≠ some e)
    {slot : PollWheel × ℤ} (hmem : e ∈ l slot) :
    (∃ l', TimeoutsSound t.events l' ∧ e ∈ l' slot) ∨
      ∃ p fuel, a = .lists (.expire p fuel) ∧ slot = s.events.dueSlot p ∧ t.events.lists.home e = none := by
  have herase : ∀ x, some x ≠ some e → e ∈ (l slot).erase x := fun x hx =>
    (List.mem_erase_of_ne fun heq => hx (congrArg some heq.symm)).mpr hmem
  cases a with
  | readNext p =>
    obtain ⟨_, _, rfl⟩ := threadStep_readNext hstep
    exact .inl ⟨l, h, hmem⟩
  | timeOut p =>
    obtain ⟨x, _, hcursor, _, rfl⟩ := threadStep_timeOut hstep
    exact .inl ⟨_, h.complete x, herase x fun hx => hother (hcursor.trans hx)⟩
  | lists a =>
    cases a with
    | link x listen =>
      obtain ⟨u, hu, rfl⟩ := Option.map_eq_some_iff.mp hstep
      exact .inl ⟨l, (h.link hu).2, hmem⟩
    | enter x =>
      cases hstep
      exact .inl ⟨l, h.keep rfl rfl rfl, hmem⟩
    | clock p now =>
      obtain ⟨hevents, _, _⟩ := listsStep_frame (a := .clock p now) hstep (fun _ _ hne => by cases hne)
      rw [← Option.some.inj hevents]
      exact .inl ⟨l, h.keep rfl rfl rfl, hmem⟩
    | complete x =>
      cases hstep
      exact .inl ⟨_, h.complete x, herase x hother⟩
    | add p x timeout =>
      cases hstep
      by_cases hnew : (timeout ≠ 0 ∧ s.events.listen x = false) ∧ s.events.lists.home x = none
      · refine .inl ⟨_, h.added p hnew.1 hnew.2, ?_⟩
        by_cases hslot : slot = s.events.slotOf p timeout
        · subst hslot
          rw [Function.update_self]
          exact List.mem_cons_of_mem _ hmem
        · rw [Function.update_of_ne hslot]
          exact hmem
      · exact .inl ⟨l, h.add_same p fun hadds hhome => hnew ⟨hadds, hhome⟩, hmem⟩
    | expire p fuel =>
      obtain ⟨_, _, hexpire, _⟩ := listsStep_expire hstep
      rcases h.expired (timeoutStep_expire hexpire) with ⟨_, hsound⟩ | ⟨_, hsame⟩
      · by_cases hslot : slot = s.events.dueSlot p
        · refine .inr ⟨p, fuel, rfl, hslot, ?_⟩
          by_contra hhome
          obtain ⟨slot', hslot'⟩ := Option.ne_none_iff_exists'.mp hhome
          have hmem' := (hsound.lists.home e slot').mp hslot'
          by_cases heq : slot' = s.events.dueSlot p
          · rw [heq, Function.update_self] at hmem'
            cases hmem'
          · rw [Function.update_of_ne heq] at hmem'
            exact heq ((h.lists.home_unique hmem' hmem).trans hslot)
        · refine .inl ⟨_, hsound, ?_⟩
          rw [Function.update_of_ne hslot]
          exact hmem
      · exact .inl ⟨l, hsame ▸ h, hmem⟩

/-- The clock of a wheel does not go back. -/
theorem wheelStep_now {w' : SPollInfo} {b : WheelAction} (h : wheelStep w b = some w') : w.now ≤ w'.now := by
  cases b with
  | add x timeout =>
    cases h
    exact Nat.le_of_eq (add_frame w x timeout).1.symm
  | delete x =>
    cases h
    exact Nat.le_of_eq (delete_frame w x).1.symm
  | clock now =>
    simp only [wheelStep] at h
    split at h <;> cases h
    next hturn => exact hturn.2
  | expire =>
    simp only [wheelStep] at h
    split at h <;> cases h
    exact Nat.le_of_eq (expire_now w).1.symm

/-- Nor does that of the pointers. -/
theorem WheelOf.now_mono (h : WheelOf poll s l w) (hok : NotNegative s a) (hstep : threadStep s a = some t) :
    s.events.now poll ≤ t.events.now poll := by
  obtain ⟨_, w', hl', hmoves⟩ := h.step hok hstep
  rw [h.now, hl'.now]
  rcases hmoves with rfl | ⟨b, hb, _⟩
  · exact Int.le_refl _
  · exact_mod_cast wheelStep_now hb

/-- **An event that is added waits on its slot, and no poll thread has it, until its deadline (proved).** -/
theorem waits_or_due (hreach : ReachableVia (enabled threadStep) NotNegative (.start start asyncNext listen) s)
    (hhome : s.events.lists.home e = none) (hlisten : s.events.listen e = false) (hawaited : ¬ s.Awaited e)
    {timeout : ℕ} (hpos : 0 < timeout) (hmax : timeout < 1986000)
    (hrun : ReachableVia (enabled threadStep) (SparesEvent e)
      { s with events := s.events.socketTimeoutAdd poll e timeout } t) :
    (∃ z, t.events.lists.home e = some (poll, z)) ∧ ¬ t.Awaited e ∨
      s.events.now poll + (timeout / 1000 : ℕ) ≤ t.events.now poll := by
  obtain ⟨w, hw, l, hl⟩ := exists_wheelOf poll hreach
  have hadds : (timeout : ℤ) ≠ 0 ∧ s.events.listen e = false := ⟨by omega, hlisten⟩
  obtain ⟨l₁, hl₁⟩ := hl.added timeout hadds hhome rfl
  induction hrun with
  | init =>
    refine .inl ⟨⟨(s.events.slotOf poll timeout).2, ?_⟩, fun h => hawaited ?_⟩
    · refine ((hl.sound.added poll hadds hhome).lists.home e _).mpr ?_
      rw [show (poll, (s.events.slotOf poll timeout).2) = s.events.slotOf poll timeout from rfl, Function.update_self]
      exact List.mem_cons_self
    · have hstep : threadStep s (.lists (.add poll e timeout)) =
          some { s with events := s.events.socketTimeoutAdd poll e timeout } := rfl
      exact (awaited_step hl.sound hstep h).resolve_right fun ⟨_, _, ha, _⟩ => by cases ha
  | @next t u a hprev hok hstep ih =>
    have hwheel : ∃ w', Reachable (enabled wheelStep) (w.socketTimeoutAdd e timeout) w' ∧ ∃ l', WheelOf poll t l' w' :=
      hl₁.run (fun _ _ hok => hok.1) (fun _ _ _ _ _ _ => trivial) hprev
    obtain ⟨_, _, l₂, hl₂⟩ := hwheel
    have hmono := hl₂.now_mono hok.1 hstep
    rcases ih with ⟨⟨z, hz⟩, hnot⟩ | hdue
    · have hmem : e ∈ l₂ (poll, z) := (hl₂.sound.lists.home _ _).mp hz
      rcases mem_step hl₂.sound hstep hok.2 hmem with ⟨l₃, hl₃, hmem₃⟩ | ⟨p, fuel, rfl, hslot, hoff⟩
      · refine .inl ⟨⟨z, (hl₃.lists.home _ _).mpr hmem₃⟩, fun h => ?_⟩
        rcases awaited_step hl₂.sound hstep h with h | ⟨p, fuel, rfl, hnew, hdue⟩
        · exact hnot h
        · -- the expiry would have taken it off
          obtain ⟨_, _, hexpire, _⟩ := listsStep_expire hstep
          have hsound := ((hl₂.sound.expired (timeoutStep_expire hexpire)).resolve_right fun hsame => hnew hsame.1).2
          have hslot := hl₂.sound.lists.home_unique hmem hdue
          have hmem' := (hsound.lists.home e _).mp ((hl₃.lists.home e _).mpr hmem₃)
          rw [hslot, Function.update_self] at hmem'
          cases hmem'
      · obtain rfl : poll = p := (Prod.mk.inj hslot).1
        have hle := not_detached_early hreach hhome hlisten hpos hmax hprev hz hstep hoff
        exact .inr (Int.le_trans hle hmono)
    · exact .inr (Int.le_trans hdue hmono)

/-- An event that is added with a second, in a new engine. -/
private def addedSecond : TimeoutThreads where
  events := (TimeoutThreads.start 0 (fun _ => none) fun _ => false).events.socketTimeoutAdd .pollIn 0 (1000 : ℕ)

end Run

end Connio
