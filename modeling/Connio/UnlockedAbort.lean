import Connio.LockFree

/-!
# The abort that takes no lock

When the event of a large client buffer cannot be allocated or queued, `ConnAWriteFromBufferEx` calls
`EventQueueAbort` without the event lock.  This module cuts that abort into its steps, which run between the
holds of the event lock and the other steps of the conn's threads.

* `AbortStage`, `eventQueueAbortStep` — where such a thread is, and its next step;
* `AbortSystem`, `abortStep` — the conn with all its threads and any number of such aborts;
* `AbortSystem.Undisturbed` — nobody takes the event lock between the look at the head of the queue and the end of
  `ConnEventFreeListAdd`;
* `QueueInv.discardHead`, `QueueInv.record` — the abstract queue loses one event, and gets its problem;
* `AbortInv`, `abortInv_step` — **PROVED**: with the unlinked event put on the free list, the invariants of ownership
  hold in every state of an undisturbed run;
* `reachable_linearOwnership` — **PROVED**: in an undisturbed run ownership is linear exactly while no such abort has an
  event in its hands;
* `linearOwnership_fails` — a disturbed abort, after which an event is freed twice.
-/

namespace Connio

open Connio.Lib

/-! ### The steps of the abort -/

/-- Where a thread is in `EventQueueAbort( conn, NULL, ... )`. -/
inductive AbortStage where
  /-- `SetAsyncProblem` is about to test `problem` -/
  | testing (p : AsyncProblem)
  /-- it has found NULL and is about to set the problem -/
  | setting (p : AsyncProblem)
  /-- `CancelQueuedEvents` is about to look at the head of the queue -/
  | looking
  /-- `EventQueueRemoveEvent` is about to unlink the event that was found -/
  | unlinking (e : EventId)
  /-- `ConnEventFreeListAdd` is about to read `freeList` into `e->next` -/
  | adding (e : EventId)
  /-- it is about to write the event to `freeList` -/
  | linking (e : EventId) (next : List EventId)
  /-- `CancelEventsInProgress` is about to test `ConnEventsInProgress` -/
  | inProgress
  /-- about to test `sp->number` -/
  | number
  /-- about to test the connect slot -/
  | choosing
  /-- about to read the type of the event in the connect slot -/
  | connecting
  /-- about to test the send slot, or the receive slot -/
  | visiting (k : ConnEventClass)
  /-- about to write the error of the event in the slot -/
  | marking (k : ConnEventClass)
  /-- about to call `SocketEventKill` -/
  | killing (k : ConnEventClass)
  deriving DecidableEq, Repr

/-- The send slot is followed by the receive slot. -/
def AbortStage.visitNext : ConnEventClass → Option AbortStage
  | .send => some (.visiting .receive)
  | _ => none

/-- The next step of an abort that holds no lock; the first component is `none` when it returns.  A slot that has
become empty since its test is a NULL pointer that is read: there is no next step. -/
def eventQueueAbortStep (c : Conn) : AbortStage → Option (Option AbortStage × Conn)
  | .testing p =>
    if c.transaction.problem = none then some (some (.setting p), c) else some (none, c.note (.report p))
  | .setting p => some (some .looking, { c with transaction.problem := some p }.note (.report p))
  | .looking => some (some (c.transaction.queue.head.elim .inProgress .unlinking), c)
  | .unlinking e => some (some (.adding e), (eventQueueRemoveEvent c e).note (.discard e))
  | .adding e => some (some (.linking e c.transaction.freeList), c)
  | .linking e next => some (some .looking, { c with transaction.freeList := e :: next })
  | .inProgress => some (if connEventsInProgress c then some .number else none, c)
  | .number => some (if c.sp.number = none then none else some .choosing, c)
  | .choosing => some (some (if c.activeEvent.connect.isSome then .connecting else .visiting .send), c)
  | .connecting => c.activeEvent.connect.map fun e =>
    (if c.typeOf e = .disconnect ∨ c.typeOf e = .sslDisconnect then none else some (.marking .connect), c)
  | .visiting k =>
    some (if (c.activeEvent.get k).isSome then some (.marking k) else AbortStage.visitNext k, c)
  | .marking k => (c.activeEvent.get k).map fun e => (some (.killing k), c.setError e Errno.ecanceled)
  | .killing k => some (AbortStage.visitNext k, { c with sp := socketEventKill c.sp k })

namespace AbortStage

/-- Between the look at the head of the queue and the end of `ConnEventFreeListAdd`. -/
def moving : AbortStage → Bool
  | .unlinking _ | .adding _ | .linking _ _ => true
  | _ => false

/-- The event that has been unlinked and is not on the free list yet. -/
def hand : AbortStage → List EventId
  | .adding e | .linking e _ => [e]
  | _ => []

end AbortStage

/-! ### The system -/

/-- One conn with all that runs on it, and the threads inside an abort that holds no lock. -/
structure AbortSystem where
  sys : AsyncSystem
  aborts : List AbortStage

inductive AbortAction where
  /-- anything but the abort of `ConnAWriteFromBufferEx` -/
  | other (a : AsyncAction)
  /-- `ConnAWriteFromBufferEx` could not allocate or queue its event -/
  | begin (source : CodeSource)
  /-- such an abort makes its next step -/
  | abort (x : AbortStage)

/-- One step of the system.  A hold of the event lock is one step, and so is each step of an abort. -/
def abortStep (s : AbortSystem) : AbortAction → Option AbortSystem
  | .other a =>
    if a.isWriteAbort then none else (asyncStep s.sys a).map fun t => { s with sys := t }
  | .begin source =>
    some { s with aborts := .testing ⟨.failed, Errno.enomem, source⟩ :: s.aborts }
  | .abort x =>
    if x ∈ s.aborts then
      (eventQueueAbortStep s.sys.conn x).map fun r =>
        { sys := { s.sys with conn := r.2 }, aborts := r.1.toList ++ s.aborts.erase x }
    else none

namespace AbortSystem

structure Initial (s : AbortSystem) : Prop where
  sys : s.sys.Initial
  aborts : s.aborts = []

/-- No abort is between its look at the head of the queue and the end of `ConnEventFreeListAdd`. -/
def Still (s : AbortSystem) : Prop := ∀ x ∈ s.aborts, x.moving = false

instance (s : AbortSystem) : Decidable s.Still := inferInstanceAs (Decidable (∀ x ∈ s.aborts, x.moving = false))

/-- **An abort that holds no lock is not disturbed:** it sets the problem only if there is still none, and takes an
event off the queue only while its transaction lasts; from its look at the head of the queue until the event is on the
free list nobody takes the event lock, and no other such abort looks at the queue. -/
def Undisturbed (s : AbortSystem) : AbortAction → Prop
  | .other a => a.takesLock = true → s.Still
  | .abort (.setting _) => s.sys.conn.transaction.problem = none
  | .abort .looking =>
    s.sys.conn.transaction.queue.head ≠ none → s.sys.conn.transaction.problem ≠ none ∧ s.Still
  | _ => True

instance (s : AbortSystem) : (a : AbortAction) → Decidable (s.Undisturbed a)
  | .other a => inferInstanceAs (Decidable (a.takesLock = true → s.Still))
  | .abort (.setting _) => inferInstanceAs (Decidable (s.sys.conn.transaction.problem = none))
  | .abort .looking => inferInstanceAs (Decidable (s.sys.conn.transaction.queue.head ≠ none →
      s.sys.conn.transaction.problem ≠ none ∧ s.Still))
  | .begin _ | .abort (.testing _) | .abort (.unlinking _) | .abort (.adding _) | .abort (.linking _ _)
  | .abort .inProgress | .abort .number | .abort .choosing | .abort .connecting | .abort (.visiting _)
  | .abort (.marking _) | .abort (.killing _) => .isTrue trivial

/-- The events that such aborts have unlinked and not yet put on the free list. -/
def hand (s : AbortSystem) : List EventId := s.aborts.flatMap AbortStage.hand

/-- The system with these events on the free list. -/
def restored (s : AbortSystem) : AsyncSystem :=
  s.sys.withFreeList (s.hand ++ s.sys.conn.transaction.freeList)

end AbortSystem

/-! ### The abstract queue -/

/-- The first problem of a transaction, the queue left as it is. -/
theorem QueueInv.record {v : QueueState} (hinv : QueueInv v) (hproblem : v.problem = none) {p : AsyncProblem}
    (hfailure : p.status.IsFailure) : QueueInv (v.record p) := by
  have hnone : firstProblem (txnLog v.log) = none := by rw [← hinv.summary.problem_eq, hproblem]
  refine ⟨hinv.allocated_nodup, hinv.accepted_nodup, ?_, ?_, ?_, hinv.order.record p, ?_⟩
  · exact ⟨hinv.slot.slot_class, hinv.slot.connect_alone, hinv.slot.slot_allocated, hinv.slot.queued_allocated⟩
  · exact ⟨hinv.state.async, hinv.state.idle, hinv.state.complete⟩
  · exact hinv.life.extend [_] rfl rfl (by simp [LogEntry.mark?]) (by simp [LifeEntry])
  · refine hinv.summary.problematic [.report p] rfl (by simp [LogEntry.isPrepare]) ?_
      (by simp [QueueState.record, QueueState.write]) (fun q hq => ?_) (fun _ h => h) (fun _ _ h => h)
      (by simp [left, LogEntry.leave?])
    · rw [List.cons_append, List.nil_append, firstProblem_cons, hnone]
      rfl
    · cases hq
      exact .inl hfailure

/-- One event leaves the head of the queue of a transaction with a problem. -/
def QueueState.discardHead (v : QueueState) (e : EventId) (l : List EventId) : QueueState :=
  { v with queued := l }.write (.discard e)

theorem OrderInv.discardHead {v : QueueState} {e : EventId} {l : List EventId} (hinv : OrderInv v)
    (hproblem : v.problem ≠ none) (hq : v.queued = e :: l) : OrderInv (v.discardHead e l) := by
  have hsub : ∀ x ∈ l, x ∈ v.queued := fun x hx => hq ▸ List.mem_cons_of_mem e hx
  have hea : e ∈ appended v.log :=
    hinv.queued_sublist.subset (List.mem_reverse.mpr (hq ▸ List.mem_cons_self))
  refine ⟨hinv.appended_nodup, hinv.appended_accepted, hinv.accepted_allocated, ?_, hinv.started_appended,
    hinv.left_started, hinv.left_nodup, fun x hx => hinv.queued_fresh x (hsub x hx), hinv.started_cases,
    hinv.active_started, fun x hx => ?_, fun _ _ => .inl hproblem,
    fun x hx y hy hb => hinv.barrier x hx y (hsub y hy) hb, hea, hinv.entries⟩
  · refine List.Sublist.trans ?_ hinv.queued_sublist
    rw [hq, List.reverse_cons]
    exact List.sublist_append_left _ _
  · show x ∈ l ∨ x ∈ started v.log ∨ x ∈ e :: discarded v.log
    rcases hinv.appended_cases x hx with h | h | h
    · rcases List.mem_cons.mp (hq ▸ h) with rfl | h
      · exact .inr (.inr List.mem_cons_self)
      · exact .inl h
    · exact .inr (.inl h)
    · exact .inr (.inr (List.mem_cons_of_mem e h))

theorem QueueInv.discardHead {v : QueueState} {e : EventId} {l : List EventId} (hinv : QueueInv v)
    (hproblem : v.problem ≠ none) (hq : v.queued = e :: l) : QueueInv (v.discardHead e l) := by
  have hsub : ∀ x ∈ l, x ∈ v.queued := fun x hx => hq ▸ List.mem_cons_of_mem e hx
  refine ⟨hinv.allocated_nodup, hinv.accepted_nodup, ?_, ⟨hinv.state.async, fun h => ?_, fun h => ?_⟩, ?_,
    hinv.order.discardHead hproblem hq, ?_⟩
  · exact ⟨hinv.slot.slot_class, hinv.slot.connect_alone, hinv.slot.slot_allocated,
      fun x hx => hinv.slot.queued_allocated x (hsub x hx)⟩
  · -- an idle conn has nothing queued
    have := (hinv.state.idle h).1
    rw [hq] at this
    cases this
  · have := (hinv.state.complete h).1
    rw [hq] at this
    cases this
  · exact hinv.life.extend [_] rfl rfl (by simp [LogEntry.mark?]) (by simp [LifeEntry])
  · exact hinv.summary.later hproblem [_] rfl (by simp [LogEntry.isPrepare]) rfl hsub (fun _ _ h => h)
      (by simp [left, LogEntry.leave?])

/-! ### What one step does to the conn -/

/-- **A step of an abort that holds no lock, on the conn with the unlinked event restored.** -/
structure AbortEffect (c c' : Conn) : Prop where
  owned : Owned c [] c' []
  queue : QueueInv (view c')
  steady : Steady c c'
  log : ∃ xs, accepted xs = [] ∧ c'.log = xs ++ c.log

namespace AbortEffect

variable {c : Conn}

theorem refl (hwf : c.Wf) (hinv : QueueInv (view c)) : AbortEffect c c :=
  ⟨(LockEffect.refl (P := True) hwf).toOwned, hinv, .refl c, [], rfl, rfl⟩

/-- A later problem is only reported. -/
theorem report (hwf : c.Wf) (hinv : QueueInv (view c)) (hproblem : c.transaction.problem ≠ none)
    {p : AsyncProblem} (hfailure : p.status.IsFailure) : AbortEffect c (c.note (.report p)) := by
  refine ⟨.plain hwf ⟨[_], rfl⟩ (fun _ => rfl) rfl rfl (fun _ hx => .inl hx) rfl rfl, ?_,
    ⟨rfl, rfl, rfl, rfl, rfl⟩, [_], rfl, rfl⟩
  exact queueInv_step hinv (.again hproblem hfailure)

/-- The first problem is set. -/
theorem record (hwf : c.Wf) (hinv : QueueInv (view c)) (hproblem : c.transaction.problem = none)
    {p : AsyncProblem} (hfailure : p.status.IsFailure) :
    AbortEffect c ({ c with transaction.problem := some p }.note (.report p)) :=
  ⟨.plain hwf ⟨[_], rfl⟩ (fun _ => rfl) rfl rfl (fun _ hx => .inl hx) rfl rfl, hinv.record hproblem hfailure,
    ⟨rfl, rfl, rfl, rfl, rfl⟩, [_], rfl, rfl⟩

/-- **The head of the queue moves to the free list.** -/
theorem discard (hwf : c.Wf) (hinv : QueueInv (view c)) (hproblem : c.transaction.problem ≠ none) {e : EventId}
    (hhead : c.transaction.queue.head = some e) :
    AbortEffect c ((connEventFreeListAdd (eventQueueRemoveEvent c e) e).note (.discard e)) := by
  obtain ⟨l, hq⟩ : ∃ l, c.queued = e :: l := by
    have h := hwf.head_eq
    rw [hhead] at h
    exact List.head?_eq_some_iff.mp h.symm
  have hrep : c.transaction.queue.Represents ([] ++ e :: l) := hq ▸ hwf
  obtain ⟨hwf', hl⟩ := Conn.Wf.of_represents
    (c := (connEventFreeListAdd (eventQueueRemoveEvent c e) e).note (.discard e)) (represents_unlink hrep)
  refine ⟨.plain hwf' ⟨[_], rfl⟩ (fun x => ?_) rfl rfl (fun _ hx => .inl hx) rfl rfl, ?_,
    ⟨rfl, rfl, rfl, rfl, rfl⟩, [_], rfl, rfl⟩
  · show (_ ++ c.activeEvent.occupied ++ e :: c.transaction.freeList).count x + _ = _
    rw [hl, Conn.held, hq]
    simp only [List.nil_append, List.count_append, List.count_cons, List.count_nil]
    omega
  · have h := hinv.discardHead hproblem hq
    show QueueInv { queued := Conn.queued _, active := _, problem := _, state := _, threads := _, typeOf := _, log := _ }
    rw [hl]
    exact h

/-- An active event is marked, or its socket event is killed. -/
theorem of_cancelled {c' : Conn} (hwf : c.Wf) (hinv : QueueInv (view c)) (h : Cancelled c c') :
    AbortEffect c c' := by
  refine ⟨.of_cancelled hwf h, h.view.symm ▸ hinv, h.steady, [], rfl, ?_⟩
  obtain ⟨_, _, rfl⟩ := h.rest
  rfl

end AbortEffect

/-- The error of one event is written. -/
theorem marked_cancelled (c : Conn) (e : EventId) : Cancelled c (c.setError e Errno.ecanceled) := by
  refine ⟨⟨_, c.sp.event, rfl⟩, fun x => ?_, fun _ => .inl rfl⟩
  by_cases hx : x = e
  · exact .inr (by simp [Conn.setError, Conn.setEvent, hx])
  · exact .inl (by simp [Conn.setError, Conn.setEvent, hx])

/-- The socket event of one slot is killed. -/
theorem killed_cancelled (c : Conn) (k : ConnEventClass) :
    Cancelled c { c with sp := socketEventKill c.sp k } := by
  refine ⟨⟨c.events, _, rfl⟩, fun _ => .inl rfl, fun k' => ?_⟩
  show (c.sp.event.set k _).get k' = _ ∨ (c.sp.event.set k _).get k' = _
  rw [Slots.get_set]
  split
  · next h => exact .inr (by rw [h]; rfl)
  · exact .inl rfl

/-- **The invariants of ownership survive a step of such an abort (proved).** -/
theorem OwnershipInv.of_effect {s : AsyncSystem} {c' : Conn} (hinv : OwnershipInv s)
    (h : AbortEffect s.conn c') : OwnershipInv { s with conn := c' } := by
  obtain ⟨xs, hxs, hlog⟩ := h.log
  have hfreed : freed c'.log = freed s.conn.log := freed_of_releases h.owned.released
  refine ⟨⟨h.owned.wf, h.queue, ?_, ?_, fun x => ?_, fun x => ?_, fun x hx => ?_, fun w hw st hst => ?_,
    h.owned.socketOk hinv.inv.socket⟩, hinv.release.of_owned h.owned fun x hx => hinv.inv.freed_allocated hx,
    fun y hy => ?_⟩
  · exact h.steady.threads.trans hinv.inv.threads
  · show s.completions.count .starting = if c'.state = _ then 1 else 0
    rw [h.steady.state]
    exact hinv.inv.completing
  · show (s.owned ++ c'.sp.linked).count x = c'.activeEvent.occupied.count x
    rw [h.owned.linked, h.steady.active]
    exact hinv.inv.processing x
  · have h1 := h.owned.ledger x
    have h2 := hinv.inv.ledger x
    show c'.held.count x + s.outside.count x + (freed c'.log).count x = (allocated c'.log).count x
    rw [hfreed]
    simp only [List.count_nil] at h1
    omega
  · exact hinv.inv.caller_fresh_of_owned h.owned hx (by simp)
  · exact hinv.inv.returned_of_owned h.owned hw hst
  · have hok := hinv.completion y hy
    have hsuffix : s.conn.log.IsSuffix c'.log := h.owned.suffix
    cases y with
    | starting => trivial
    | destroying sm freeList mark =>
      obtain ⟨t, hmark, hs, hall, hold⟩ := hok
      refine ⟨t, hmark, hs.trans hsuffix, fun e he => hfreed ▸ hall e he, fun e he hacc => hold e he ?_⟩
      rw [hlog] at hacc
      refine (accepted_txnLog_append hacc).resolve_left fun hmem => ?_
      rw [hxs] at hmem
      cases hmem
    | calling sm mark =>
      obtain ⟨t, hmark, hs, hall⟩ := hok
      exact ⟨t, hmark, hs.trans hsuffix, fun e he => hfreed ▸ hall e he⟩

/-! ### The invariant -/

/-- What a thread inside such an abort relies on. -/
def StageOk (c : Conn) : AbortStage → Prop
  | .testing p | .setting p => p.status.IsFailure
  | .unlinking e => c.transaction.queue.head = some e ∧ c.transaction.problem ≠ none
  | .adding e => e ∈ accepted c.log
  | .linking e next => e ∈ accepted c.log ∧ next = c.transaction.freeList
  | _ => True

/-- A thread that moves no event does not rely on the conn. -/
theorem StageOk.of_still {c c' : Conn} {x : AbortStage} (h : StageOk c x) (hm : x.moving = false) :
    StageOk c' x := by
  cases x with
  | unlinking | adding | linking => cases hm
  | testing | setting => exact h
  | _ => trivial

theorem StageOk.mono {c c' : Conn} {x : AbortStage} (h : StageOk c x)
    (hqueue : c'.transaction.queue = c.transaction.queue)
    (hproblem : c.transaction.problem ≠ none → c'.transaction.problem ≠ none)
    (hfree : c'.transaction.freeList = c.transaction.freeList) (hlog : c.log.IsSuffix c'.log) : StageOk c' x := by
  cases x with
  | testing | setting => exact h
  | unlinking e => exact ⟨hqueue ▸ h.1, hproblem h.2⟩
  | adding e => exact mem_of_suffix hlog h
  | linking e next => exact ⟨mem_of_suffix hlog h.1, hfree ▸ h.2⟩
  | _ => trivial

/-- **The invariant of a conn with aborts that hold no lock.** -/
structure AbortInv (s : AbortSystem) : Prop where
  ownership : OwnershipInv s.restored
  alone : s.aborts.countP AbortStage.moving ≤ 1
  stages : ∀ x ∈ s.aborts, StageOk s.sys.conn x

/-- What the other threads of the list have in their hands. -/
theorem flatMap_erase_of_nil {α β : Type} [DecidableEq α] {f : α → List β} {x : α} (hx : f x = []) (l : List α) :
    (l.erase x).flatMap f = l.flatMap f := by
  induction l with
  | nil => rfl
  | cons y l ih =>
    by_cases hxy : y = x
    · rw [hxy, List.erase_cons_head, List.flatMap_cons, hx]
      rfl
    · rw [List.erase_cons_tail (by simpa using hxy), List.flatMap_cons, List.flatMap_cons, ih]

theorem AbortStage.hand_of_still {x : AbortStage} (h : x.moving = false) : x.hand = [] := by
  cases x with
  | adding | linking => cases h
  | _ => rfl

theorem hand_of_still {l : List AbortStage} (h : ∀ x ∈ l, x.moving = false) : l.flatMap AbortStage.hand = [] :=
  List.flatMap_eq_nil_iff.mpr fun x hx => AbortStage.hand_of_still (h x hx)

namespace AbortInv

variable {s : AbortSystem}

/-- While one abort moves an event, the others do not. -/
theorem others_still (hinv : AbortInv s) {x : AbortStage} (hx : x ∈ s.aborts) (hm : x.moving = true) :
    ∀ y ∈ s.aborts.erase x, y.moving = false := by
  have h1 := hinv.alone
  rw [(List.perm_cons_erase hx).countP_eq, List.countP_cons_of_pos hm] at h1
  have h2 : (s.aborts.erase x).countP AbortStage.moving = 0 := by omega
  intro y hy
  exact Bool.eq_false_iff.mpr (List.countP_eq_zero.mp h2 y hy)

/-- What such an abort has in its hands is all there is. -/
theorem hand_eq (hinv : AbortInv s) {x : AbortStage} (hx : x ∈ s.aborts) (hm : x.moving = true) :
    s.hand = x.hand := by
  have h1 : s.hand.Perm (x.hand ++ (s.aborts.erase x).flatMap AbortStage.hand) :=
    (List.perm_cons_erase hx).flatMap_right _
  rw [hand_of_still (hinv.others_still hx hm), List.append_nil] at h1
  cases x with
  | adding | linking => exact List.perm_singleton.mp h1
  | _ => exact List.perm_nil.mp h1

theorem visitNext_ok {c : Conn} {k : ConnEventClass} {z : AbortStage} (h : z ∈ AbortStage.visitNext k) :
    z.moving = false ∧ StageOk c z := by
  cases k <;> cases h
  exact ⟨rfl, trivial⟩

/-- **An abort that moves no event makes a step after which it moves none.** -/
theorem of_still (hinv : AbortInv s) {x : AbortStage} (hx : x ∈ s.aborts) (hm : x.moving = false)
    {y : Option AbortStage} {c' : Conn} (hy : ∀ z ∈ y, z.moving = false ∧ StageOk c' z)
    (heffect : AbortEffect s.restored.conn
      (c'.withFreeList (s.hand ++ s.sys.conn.transaction.freeList)))
    (hqueue : c'.transaction.queue = s.sys.conn.transaction.queue)
    (hproblem : s.sys.conn.transaction.problem ≠ none → c'.transaction.problem ≠ none)
    (hfree : c'.transaction.freeList = s.sys.conn.transaction.freeList) :
    AbortInv { sys := { s.sys with conn := c' }, aborts := y.toList ++ s.aborts.erase x } := by
  have hhand : (y.toList ++ s.aborts.erase x).flatMap AbortStage.hand = s.hand := by
    rw [List.flatMap_append, flatMap_erase_of_nil (AbortStage.hand_of_still hm),
      hand_of_still fun z hz => (hy z (Option.mem_toList.mp hz)).1]
    rfl
  refine ⟨?_, ?_, fun z hz => ?_⟩
  · show OwnershipInv { s.sys with conn := c'.withFreeList (_ ++ c'.transaction.freeList) }
    rw [AbortSystem.hand, hhand, hfree]
    exact hinv.ownership.of_effect heffect
  · have h1 := hinv.alone
    have h2 : y.toList.countP AbortStage.moving = 0 := List.countP_eq_zero.mpr fun z hz => by
      rw [(hy z (Option.mem_toList.mp hz)).1]
      simp
    rw [(List.perm_cons_erase hx).countP_eq, List.countP_cons_of_neg (by simp [hm])] at h1
    rw [List.countP_append]
    omega
  · rcases List.mem_append.mp hz with hz | hz
    · exact (hy z (Option.mem_toList.mp hz)).2
    · exact (hinv.stages z (List.mem_of_mem_erase hz)).mono hqueue hproblem hfree heffect.owned.suffix

/-- The same for a step that only reads. -/
theorem of_read (hinv : AbortInv s) {x : AbortStage} (hx : x ∈ s.aborts) (hm : x.moving = false)
    {y : Option AbortStage} (hy : ∀ z ∈ y, z.moving = false ∧ StageOk s.sys.conn z) :
    AbortInv { sys := s.sys, aborts := y.toList ++ s.aborts.erase x } := by
  have heffect : AbortEffect s.restored.conn s.restored.conn :=
    .refl hinv.ownership.inv.wf hinv.ownership.inv.queue
  exact hinv.of_still hx hm hy heffect rfl (fun h => h) rfl

/-- **The abort that moves an event makes a step.** -/
theorem of_moving (hinv : AbortInv s) {x : AbortStage} (hx : x ∈ s.aborts) (hm : x.moving = true)
    {y : AbortStage} {c' : Conn} (hy : StageOk c' y)
    (heffect : AbortEffect s.restored.conn (c'.withFreeList (y.hand ++ c'.transaction.freeList))) :
    AbortInv { sys := { s.sys with conn := c' }, aborts := y :: s.aborts.erase x } := by
  have hothers := hinv.others_still hx hm
  refine ⟨?_, ?_, fun z hz => ?_⟩
  · show OwnershipInv { s.sys with
      conn := c'.withFreeList ((y :: s.aborts.erase x).flatMap AbortStage.hand ++ c'.transaction.freeList) }
    rw [List.flatMap_cons, hand_of_still hothers, List.append_nil]
    exact hinv.ownership.of_effect heffect
  · have h1 : (s.aborts.erase x).countP AbortStage.moving = 0 := List.countP_eq_zero.mpr fun z hz => by
      rw [hothers z hz]
      simp
    rw [List.countP_cons, h1]
    split <;> omega
  · rcases List.mem_cons.mp hz with rfl | hz
    · exact hy
    · exact (hinv.stages z (List.mem_of_mem_erase hz)).of_still (hothers z hz)

/-- **A step of an abort that holds no lock (proved).** -/
theorem abort (hinv : AbortInv s) {x : AbortStage} (hx : x ∈ s.aborts) (hok : s.Undisturbed (.abort x))
    {r : Option AbortStage × Conn} (h : eventQueueAbortStep s.sys.conn x = some r) :
    AbortInv { sys := { s.sys with conn := r.2 }, aborts := r.1.toList ++ s.aborts.erase x } := by
  have hwf := hinv.ownership.inv.wf
  have hqueue := hinv.ownership.inv.queue
  have hstage := hinv.stages x hx
  cases x with
  | testing p =>
    rw [eventQueueAbortStep] at h
    split at h <;> cases h
    · refine hinv.of_read (y := some (.setting p)) hx rfl fun z hz => ?_
      cases hz
      exact ⟨rfl, hstage⟩
    · next hp =>
      exact hinv.of_still (y := none) hx rfl (by simp) (.report hwf hqueue hp hstage) rfl (fun h => h) rfl
  | setting p =>
    cases h
    exact hinv.of_still (y := some .looking) hx rfl (by simp [AbortStage.moving, StageOk])
      (.record hwf hqueue hok hstage) rfl (fun _ => by simp [Conn.note]) rfl
  | looking =>
    cases h
    cases hhead : s.sys.conn.transaction.queue.head with
    | none => exact hinv.of_read (y := some .inProgress) hx rfl (by simp [AbortStage.moving, StageOk])
    | some e =>
      obtain ⟨hproblem, hstill⟩ := hok (by rw [hhead]; simp)
      have hothers : ∀ z ∈ s.aborts.erase .looking, z.moving = false := fun z hz =>
        hstill z (List.mem_of_mem_erase hz)
      refine ⟨?_, ?_, fun z hz => ?_⟩
      · show OwnershipInv (s.sys.withFreeList ((s.aborts.erase .looking).flatMap AbortStage.hand ++ _))
        rw [flatMap_erase_of_nil (f := AbortStage.hand) (x := .looking) rfl]
        exact hinv.ownership
      · show (.unlinking e :: s.aborts.erase .looking).countP AbortStage.moving ≤ 1
        rw [List.countP_cons, List.countP_eq_zero.mpr fun z hz => by simp [hothers z hz]]
        split <;> omega
      · rcases List.mem_cons.mp (show z ∈ .unlinking e :: s.aborts.erase .looking from hz) with rfl | hz
        · exact ⟨hhead, hproblem⟩
        · exact hinv.stages z (List.mem_of_mem_erase hz)
  | unlinking e =>
    cases h
    obtain ⟨hhead, hproblem⟩ := hstage
    refine hinv.of_moving (y := .adding e) hx rfl ?_ ?_
    · have hrestored : e ∈ (view s.restored.conn).queued := by
        have h := hwf.head_eq
        rw [show s.restored.conn.transaction.queue.head = some e from hhead] at h
        exact List.mem_of_mem_head? h.symm
      exact hqueue.queued_accepted e hrestored
    · -- the abort has nothing in its hands yet
      have heffect := AbortEffect.discard hwf hqueue (e := e) hproblem hhead
      rw [AbortSystem.restored, hinv.hand_eq hx rfl] at heffect ⊢
      exact heffect
  | adding e =>
    cases h
    refine hinv.of_moving (y := .linking e _) hx rfl ⟨hstage, rfl⟩ ?_
    rw [AbortSystem.restored, hinv.hand_eq hx rfl] at hwf hqueue ⊢
    exact .refl hwf hqueue
  | linking e next =>
    cases h
    obtain ⟨_, rfl⟩ := hstage
    refine hinv.of_moving (y := .looking) hx rfl trivial ?_
    rw [AbortSystem.restored, hinv.hand_eq hx rfl] at hwf hqueue ⊢
    exact .refl hwf hqueue
  | inProgress =>
    cases h
    refine hinv.of_read hx rfl fun z hz => ?_
    split at hz <;> cases hz
    exact ⟨rfl, trivial⟩
  | number =>
    cases h
    refine hinv.of_read hx rfl fun z hz => ?_
    split at hz <;> cases hz
    exact ⟨rfl, trivial⟩
  | choosing =>
    cases h
    refine hinv.of_read hx rfl fun z hz => ?_
    cases hz
    split <;> exact ⟨rfl, trivial⟩
  | connecting =>
    obtain ⟨e, _, rfl⟩ := Option.map_eq_some_iff.mp h
    refine hinv.of_read hx rfl fun z hz => ?_
    dsimp only at hz
    split at hz <;> cases hz
    exact ⟨rfl, trivial⟩
  | visiting k =>
    cases h
    refine hinv.of_read hx rfl fun z hz => ?_
    split at hz
    · cases hz
      exact ⟨rfl, trivial⟩
    · exact visitNext_ok hz
  | marking k =>
    obtain ⟨e, _, rfl⟩ := Option.map_eq_some_iff.mp h
    exact hinv.of_still (y := some (.killing k)) hx rfl (by simp [AbortStage.moving, StageOk])
      (.of_cancelled hwf hqueue (marked_cancelled _ e)) rfl (fun h => h) rfl
  | killing k =>
    cases h
    exact hinv.of_still hx rfl (fun z hz => visitNext_ok hz) (.of_cancelled hwf hqueue (killed_cancelled _ k))
      rfl (fun h => h) rfl

/-- **A step of the other threads (proved).** -/
theorem other (hinv : AbortInv s) {a : AsyncAction} (hok : s.Undisturbed (.other a))
    (habort : a.isWriteAbort = false) {t : AsyncSystem} (h : asyncStep s.sys a = some t) :
    AbortInv { s with sys := t } := by
  cases hlock : a.takesLock with
  | true =>
    -- nothing is in the hands of an abort
    have hstill : s.Still := hok hlock
    have hhand : s.hand = [] := hand_of_still hstill
    have hown := hinv.ownership
    rw [AbortSystem.restored, hhand] at hown
    refine ⟨?_, hinv.alone, fun x hx => (hinv.stages x hx).of_still (hstill x hx)⟩
    show OwnershipInv (t.withFreeList (s.hand ++ t.conn.transaction.freeList))
    rw [hhand]
    exact ownershipInv_step hown h
  | false =>
    have hsame : t.withFreeList s.sys.conn.transaction.freeList = t := by
      have h1 := asyncStep_withFreeList s.sys s.sys.conn.transaction.freeList hlock habort
      rw [h] at h1
      exact (Option.some.inj (h.symm.trans h1)).symm
    have hfree : t.conn.transaction.freeList = s.sys.conn.transaction.freeList :=
      (congrArg (fun u : AsyncSystem => u.conn.transaction.freeList) hsame).symm
    have hstep := asyncStep_withFreeList s.sys (s.hand ++ s.sys.conn.transaction.freeList) hlock habort
    rw [h, Option.map_some] at hstep
    refine ⟨?_, hinv.alone, fun x hx => ?_⟩
    · show OwnershipInv (t.withFreeList (s.hand ++ t.conn.transaction.freeList))
      rw [hfree]
      exact ownershipInv_step hinv.ownership hstep
    · obtain ⟨htransaction, hlog⟩ := asyncStep_transaction (s := s.sys) hinv.ownership.inv.socket hlock habort h
      exact (hinv.stages x hx).mono (by rw [htransaction]) (by rw [htransaction]; exact fun h => h) hfree hlog

end AbortInv

/-! ### Whole runs -/

theorem AbortInv.initial {s : AbortSystem} (hinit : s.Initial) : AbortInv s := by
  refine ⟨?_, ?_, ?_⟩
  · rw [AbortSystem.restored, AbortSystem.hand, hinit.aborts]
    exact .initial hinit.sys
  all_goals
    rw [hinit.aborts]
    simp

/-- **Every undisturbed step keeps the invariant (proved).** -/
theorem abortInv_step {s s' : AbortSystem} {a : AbortAction} (hinv : AbortInv s) (hok : s.Undisturbed a)
    (h : abortStep s a = some s') : AbortInv s' := by
  cases a with
  | other a =>
    rw [abortStep] at h
    split at h
    · cases h
    next habort =>
      obtain ⟨t, ht, rfl⟩ := Option.map_eq_some_iff.mp h
      exact hinv.other hok (Bool.eq_false_iff.mpr habort) ht
  | begin source =>
    cases h
    refine ⟨hinv.ownership, ?_, fun x hx => ?_⟩
    · show (.testing _ :: s.aborts).countP AbortStage.moving ≤ 1
      rw [List.countP_cons_of_neg (by simp [AbortStage.moving])]
      exact hinv.alone
    · rcases List.mem_cons.mp hx with rfl | hx
      · exact .inr (.inl rfl)
      · exact hinv.stages x hx
  | abort x =>
    rw [abortStep] at h
    split at h
    next hx =>
      obtain ⟨r, hr, rfl⟩ := Option.map_eq_some_iff.mp h
      exact hinv.abort hx hok hr
    · cases h

/-- The history of a conn grows. -/
theorem eventQueueAbortStep_suffix {c : Conn} {x : AbortStage} {r : Option AbortStage × Conn}
    (h : eventQueueAbortStep c x = some r) : c.log.IsSuffix r.2.log := by
  cases x with
  | testing p =>
    rw [eventQueueAbortStep] at h
    split at h <;> cases h
    · exact List.suffix_rfl
    · exact List.suffix_cons _ _
  | setting | unlinking =>
    cases h
    exact List.suffix_cons _ _
  | connecting | marking =>
    obtain ⟨e, _, rfl⟩ := Option.map_eq_some_iff.mp h
    exact List.suffix_rfl
  | _ =>
    cases h
    exact List.suffix_rfl

/-- A refused event stays with its caller until it is freed. -/
theorem AbortInv.refused {s s' : AbortSystem} {a : AbortAction} (hinv : AbortInv s) (hok : s.Undisturbed a)
    (h : abortStep s a = some s') {e : EventId} (he : e ∈ s.sys.refused ∨ e ∈ freed s.sys.conn.log) :
    e ∈ s'.sys.refused ∨ e ∈ freed s'.sys.conn.log := by
  cases a with
  | other a =>
    rw [abortStep] at h
    split at h
    · cases h
    next habort =>
      obtain ⟨t, ht, rfl⟩ := Option.map_eq_some_iff.mp h
      rcases he with he | he
      · exact asyncStep_refused ht he
      · right
        cases hlock : a.takesLock with
        | true =>
          have hown := hinv.ownership
          rw [AbortSystem.restored, show s.hand = [] from hand_of_still (hok hlock)] at hown
          exact mem_of_suffix (asyncStep_effect (s := s.sys) hown.inv ht).2.suffix he
        | false =>
          exact mem_of_suffix (asyncStep_transaction (s := s.sys) hinv.ownership.inv.socket hlock
            (Bool.eq_false_iff.mpr habort) ht).2 he
  | begin source =>
    cases h
    exact he
  | abort x =>
    rw [abortStep] at h
    split at h
    · obtain ⟨r, hr, rfl⟩ := Option.map_eq_some_iff.mp h
      exact he.imp_right (mem_of_suffix (eventQueueAbortStep_suffix hr))
    · cases h

/-- **Ownership is linear exactly while no abort that holds no lock has an event in its hands (proved).** -/
theorem AbortInv.linearOwnership_iff {s : AbortSystem} (hinv : AbortInv s) :
    LinearOwnership s.sys ↔ s.hand = [] := by
  have hlinear := hinv.ownership.linearOwnership
  constructor
  · intro hown
    refine List.eq_nil_iff_forall_not_mem.mpr fun e he => ?_
    obtain ⟨x, hx, hxe⟩ := List.mem_flatMap.mp he
    have haccepted : e ∈ accepted s.sys.conn.log := by
      have hstage := hinv.stages x hx
      cases x with
      | adding f => exact List.mem_singleton.mp hxe ▸ hstage
      | linking f next => exact List.mem_singleton.mp hxe ▸ hstage.1
      | _ => cases hxe
    -- it is in one place with the event restored, so in none without it
    have h1 := hown.place e haccepted
    have h2 := hlinear.place e haccepted
    have h3 := List.count_pos_iff.mpr he
    have h4 : s.restored.places.count e = s.sys.places.count e + s.hand.count e := by
      show (s.sys.conn.queued ++ s.sys.conn.activeEvent.occupied ++
        (s.hand ++ s.sys.conn.transaction.freeList) ++ s.sys.workers.flatMap Worker.grabbed ++
        s.sys.completions.flatMap Completion.grabbed ++ freed s.sys.conn.log).count e = _
      simp only [AsyncSystem.places, List.count_append]
      omega
    omega
  · intro hhand
    rw [AbortSystem.restored, hhand] at hlinear
    exact hlinear

/-- **Linear ownership along every undisturbed run (proved).**  While an abort that holds no lock has unlinked an event
and not yet put it on the free list, the event is nowhere; otherwise everything is in its place.  An event that
`EventEnqueue` has refused stays with its caller until the caller frees it, once. -/
theorem reachable_linearOwnership {s s' : AbortSystem} (hinit : s.Initial)
    (h : ReachableVia (enabled abortStep) AbortSystem.Undisturbed s s') :
    (LinearOwnership s'.sys ↔ s'.hand = []) ∧ ∀ e ∈ s'.sys.refused, ∀ t,
      ReachableVia (enabled abortStep) AbortSystem.Undisturbed s' t →
        t.sys.refused.count e + (freed t.sys.conn.log).count e = 1 := by
  have hinv : AbortInv s' := h.invariant (.initial hinit) fun _ _ _ hinv hok hstep => abortInv_step hinv hok hstep
  refine ⟨hinv.linearOwnership_iff, fun e he t ht => ?_⟩
  have key : AbortInv t ∧ (e ∈ t.sys.refused ∨ e ∈ freed t.sys.conn.log) := by
    refine ht.invariant (P := fun t => AbortInv t ∧ (e ∈ t.sys.refused ∨ e ∈ freed t.sys.conn.log))
      ⟨hinv, .inl he⟩ ?_
    rintro u a u' ⟨hinv, hmem⟩ hok hstep
    exact ⟨abortInv_step hinv hok hstep, hinv.refused hok hstep hmem⟩
  have hone := key.1.ownership.inv.ledger_le_one e
  have hrefused : t.restored.outside.count e = t.sys.outside.count e := rfl
  have hfreed : (freed t.restored.conn.log).count e = (freed t.sys.conn.log).count e := rfl
  rw [hrefused, hfreed] at hone
  simp only [AsyncSystem.outside, List.count_append] at hone
  rcases key.2 with hmem | hmem <;> have hpos := List.count_pos_iff.mpr hmem <;> omega

/-- A new conn on socket `number`, with no such abort. -/
def AbortSystem.new (number : Option ℕ) : AbortSystem := ⟨.new number, []⟩

theorem AbortSystem.new_initial (number : Option ℕ) : (AbortSystem.new number).Initial :=
  ⟨AsyncSystem.new_initial number, rfl⟩

/-- A consumer call queues an event, which is started and waits in the engine for `type`. -/
def blockRun (e : EventId) (ce : ConnEvent) (type : SocketEventType) : List AbortAction :=
  (queueRun e ce ++ processRun e [(.destroying [], .destroy), (.starting, .test),
    (.processing, .process (.ret Errno.ewouldblock type)), (.blocked type, .test), (.submitting type, .submit 0)]
    .inProgress).map .other

/-- The socket is ready, and a callback thread takes the event lock for the event of the slot. -/
def comebackRun (e : EventId) (k : ConnEventClass) (type : SocketEventType) : List AbortAction :=
  [.pollReady k .ready, .handle k, .store ⟨e, type, 0, false⟩, .enter ⟨e, type, 0, true⟩].map .other

/-- The problem of an abort of `ConnAWriteFromBufferEx` in line 9. -/
def writeProblem : AsyncProblem := ⟨.failed, Errno.enomem, ⟨0, 9⟩⟩

/-- A read `0` and a write `1` wait in the engine, a read `2` is queued, and a third write finds no memory: its abort has
set the problem and unlinked the read `2`. -/
def abortBegun : List AbortAction :=
  blockRun 0 { type := .read, source := ⟨0, 1⟩ } .readable ++
  blockRun 1 { type := .writeFromCb, source := ⟨0, 2⟩, ioBuffer := true } .writable ++
  (queueRun 2 { type := .read, source := ⟨0, 3⟩ }).map .other ++
  [.begin ⟨0, 9⟩, .abort (.testing writeProblem), .abort (.setting writeProblem), .abort .looking,
    .abort (.unlinking 2)]

/-- The read `0` completes; the abort reads the free list; a thread comes for the write `1` and frees what is on the free
list; the abort writes the free list. -/
def disturbedRun : List AbortAction :=
  abortBegun ++ comebackRun 0 .receive .readable ++
  (processRun 0 [(.destroying [], .destroy), (.starting, .test), (.processing, .process (.ret 0 .none))]
    .complete).map .other ++
  [.abort (.adding 2)] ++ comebackRun 1 .send .writable ++ [.other (.work ⟨1, .destroying [0]⟩ .destroy)] ++
  [.abort (.linking 2 [0]), .abort .looking, .abort .inProgress, .abort .number, .abort .choosing,
    .abort (.visiting .send), .abort (.marking .send), .abort (.killing .send), .abort (.visiting .receive)]

/-- **A disturbed abort: the read `0` has been freed and is on the free list.**  The abort has returned. -/
theorem linearOwnership_fails : ∃ s : AbortSystem, Reachable (enabled abortStep) (AbortSystem.new (some 3)) s ∧
    s.aborts = [] ∧ freed s.sys.conn.log = [0] ∧ s.sys.conn.transaction.freeList = [2, 0] ∧
    ¬ LinearOwnership s.sys := by
  have hrun : (runFrom abortStep (AbortSystem.new (some 3)) disturbedRun).map (fun s => (s.aborts,
      freed s.sys.conn.log, s.sys.conn.transaction.freeList, accepted s.sys.conn.log)) =
      some ([], [0], [2, 0], [2, 1, 0]) := by
    decide +kernel
  obtain ⟨s, hs, hobs⟩ := Option.map_eq_some_iff.mp hrun
  simp only [Prod.mk.injEq] at hobs
  obtain ⟨haborts, hfreed, hfree, haccepted⟩ := hobs
  refine ⟨s, reachable_of_runFrom hs, haborts, hfreed, hfree, fun hown => ?_⟩
  have h1 := hown.place 0 (by simp [haccepted])
  have h2 : [2, 0].count 0 = 1 := rfl
  have h3 : [0].count 0 = 1 := rfl
  rw [AsyncSystem.places, hfreed, hfree] at h1
  simp only [List.count_append, h2, h3] at h1
  omega

/-- The same abort without a disturbance; the thread for the write `1` comes when the read `2` is on the free list. -/
def undisturbedRun : List AbortAction :=
  abortBegun ++ [.abort (.adding 2), .abort (.linking 2 []), .abort .looking] ++ comebackRun 1 .send .writable ++
  [.abort .inProgress, .abort .number, .abort .choosing, .abort (.visiting .send), .abort (.marking .send),
    .abort (.killing .send), .abort (.visiting .receive), .abort (.marking .receive), .abort (.killing .receive)]

/-- The read `2` is with the thread that works for the write `1`, and will be freed by it. -/
theorem reachable_linearOwnership_undisturbed : ∃ s : AbortSystem, LinearOwnership s.sys ∧
    s.aborts = [] ∧ s.sys.workers = [⟨1, .destroying [2]⟩] ∧ s.sys.conn.transaction.freeList = [] := by
  have hrun : (runFrom (guarded AbortSystem.Undisturbed abortStep) (AbortSystem.new (some 3)) undisturbedRun).map
      (fun s => (s.aborts, s.sys.workers, s.sys.conn.transaction.freeList)) =
      some ([], [⟨1, .destroying [2]⟩], []) := by
    decide +kernel
  obtain ⟨s, hs, hobs⟩ := Option.map_eq_some_iff.mp hrun
  simp only [Prod.mk.injEq] at hobs
  refine ⟨s, (reachable_linearOwnership (AbortSystem.new_initial (some 3)) (reachableVia_of_runFrom hs)).1.mpr ?_, hobs⟩
  rw [AbortSystem.hand, hobs.1]
  rfl

end Connio
