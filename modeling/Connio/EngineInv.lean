import Connio.Engine
import Connio.ProcessSpec

/-!
# The invariant of one conn with its threads

* `AsyncSystem.processing` — the events that a thread or the engine works on;
* `AsyncSystem.outside` — the events that are neither held by the conn nor freed;
* `AsyncInv` — the queue is well formed and keeps the abstract invariant, the thread count is the number
  of threads, each active event is worked on in exactly one place, and each allocated event is in exactly
  one place;
* `StepSafe` — the steps that do not strand queued events;
* `asyncStep_effect` — **PROVED**: every step keeps the invariant and makes abstract steps, which are
  safe when the step is;
* `asyncInv_reachable`, `view_reachable` — the two facts for whole runs.
-/

namespace Connio

open Connio.Lib

/-! ### Where the events are -/

/-- The event a thread works on. -/
def Worker.owned (w : Worker) : List EventId := w.stage.owned w.event

/-- The free list a thread has grabbed. -/
def Worker.grabbed (w : Worker) : List EventId := w.stage.freeList

def Completion.grabbed : Completion → List EventId
  | .destroying _ freeList _ => freeList
  | _ => []

namespace AsyncSystem

/-- The events threads work on: inside `ConnEventsProcess`, or between the engine and it. -/
def owned (s : AsyncSystem) : List EventId :=
  s.workers.flatMap Worker.owned ++ s.callbacks.flatMap fun cb => [cb.event]

/-- **The events that a thread or the engine works on.** -/
def processing (s : AsyncSystem) : List EventId := s.owned ++ s.conn.sp.linked

/-- **The events that the conn does not hold:** with a consumer's call, or on a free list that a thread
has grabbed. -/
def outside (s : AsyncSystem) : List EventId :=
  s.caller ++ s.refused ++ s.workers.flatMap Worker.grabbed ++
    s.completions.flatMap Completion.grabbed

variable {s : AsyncSystem}

/-- What a thread that still owns its event processes. -/
theorem processing_of_worker {w : Worker} (hw : w ∈ s.workers) (hholding : w.stage.holding = true) :
    w.event ∈ s.processing := by
  refine List.mem_append_left _ (List.mem_append_left _ (List.mem_flatMap.mpr ⟨w, hw, ?_⟩))
  rw [Worker.owned, Stage.owned, hholding]
  exact List.mem_singleton.mpr rfl

theorem processing_of_callback {cb : Callback} (hcb : cb ∈ s.callbacks) : cb.event ∈ s.processing :=
  List.mem_append_left _ (List.mem_append_right _ (List.mem_flatMap.mpr ⟨cb, hcb, List.mem_singleton.mpr rfl⟩))

theorem processing_of_linked {k : ConnEventClass} {x : EventId} (hx : (s.conn.sp.event.get k).arg = some x) :
    x ∈ s.processing :=
  List.mem_append_right _ (SOCK.mem_linked.mpr ⟨k, hx⟩)

/-- An event is processed by a thread that owns it, by a callback thread, or by the engine. -/
theorem mem_processing {x : EventId} : x ∈ s.processing ↔
    (∃ w ∈ s.workers, w.event = x ∧ w.stage.holding = true) ∨ (∃ cb ∈ s.callbacks, cb.event = x) ∨
      ∃ k, (s.conn.sp.event.get k).arg = some x := by
  constructor
  · intro hx
    rcases List.mem_append.mp hx with hx | hx
    · rcases List.mem_append.mp hx with hx | hx
      · obtain ⟨w, hw, hmem⟩ := List.mem_flatMap.mp hx
        rw [Worker.owned, Stage.owned] at hmem
        split at hmem
        next hholding => exact .inl ⟨w, hw, (List.mem_singleton.mp hmem).symm, hholding⟩
        · cases hmem
      · obtain ⟨cb, hcb, hmem⟩ := List.mem_flatMap.mp hx
        exact .inr (.inl ⟨cb, hcb, (List.mem_singleton.mp hmem).symm⟩)
    · exact .inr (.inr (SOCK.mem_linked.mp hx))
  · rintro (⟨w, hw, rfl, hholding⟩ | ⟨cb, hcb, rfl⟩ | ⟨k, hx⟩)
    · exact processing_of_worker hw hholding
    · exact processing_of_callback hcb
    · exact processing_of_linked hx

end AsyncSystem

/-- Taking one member out of a list. -/
theorem count_flatMap_erase {α : Type} [DecidableEq α] {l : List α} {y : α} (hy : y ∈ l)
    (f : α → List EventId) (x : EventId) :
    (l.flatMap f).count x = (f y).count x + ((l.erase y).flatMap f).count x := by
  rw [((List.perm_cons_erase hy).flatMap_right f).count_eq, List.flatMap_cons, List.count_append]

/-- **The invariant of one conn with its threads.** -/
structure AsyncInv (s : AsyncSystem) : Prop where
  wf : s.conn.Wf
  queue : QueueInv (view s.conn)
  threads : s.conn.transaction.threads = s.workers.length
  completing : s.completions.count .starting =
    if s.conn.state = .asynchronousEngineComplete then 1 else 0
  processing : ∀ x, s.processing.count x = s.conn.activeEvent.occupied.count x
  ledger : ∀ x, s.conn.held.count x + s.outside.count x + (freed s.conn.log).count x =
    (allocated s.conn.log).count x
  caller_fresh : ∀ x ∈ s.caller ++ s.refused, x ∉ accepted s.conn.log
  returned : ∀ w ∈ s.workers, ∀ st, w.stage = .returned st →
    st = .inProgress ∨ (st.Final ∧ (s.conn.events w.event).status = st)
  socket : s.conn.sp.Ok

namespace AsyncInv

variable {s : AsyncSystem}

/-- An event is in one place at most. -/
theorem ledger_le_one (hinv : AsyncInv s) (x : EventId) :
    s.conn.held.count x + s.outside.count x + (freed s.conn.log).count x ≤ 1 := by
  rw [hinv.ledger x]
  exact List.nodup_iff_count_le_one.mp hinv.queue.allocated_nodup x

/-- The slots hold different events. -/
theorem processing_le_one (hinv : AsyncInv s) (x : EventId) : s.processing.count x ≤ 1 := by
  rw [hinv.processing x]
  have h := hinv.ledger_le_one x
  simp only [Conn.held, List.count_append] at h
  omega

theorem outside_allocated (hinv : AsyncInv s) {x : EventId} (hx : x ∈ s.outside) :
    x ∈ allocated s.conn.log := by
  have h1 := List.count_pos_iff.mpr hx
  have h2 := hinv.ledger x
  exact List.count_pos_iff.mp (by omega)

/-- An event of the caller has been allocated, and not yet given to `EventEnqueue`. -/
theorem caller_new (hinv : AsyncInv s) {x : EventId} (hx : x ∈ s.caller) :
    x ∈ allocated s.conn.log ∧ x ∉ accepted s.conn.log := by
  refine ⟨hinv.outside_allocated ?_, hinv.caller_fresh x (List.mem_append_left _ hx)⟩
  simp [AsyncSystem.outside, hx]

theorem freed_allocated (hinv : AsyncInv s) {x : EventId} (hx : x ∈ freed s.conn.log) :
    x ∈ allocated s.conn.log := by
  have h1 := List.count_pos_iff.mpr hx
  have h2 := hinv.ledger x
  exact List.count_pos_iff.mp (by omega)

theorem caller_allocated (hinv : AsyncInv s) {x : EventId} (hx : x ∈ s.caller ++ s.refused) :
    x ∈ allocated s.conn.log := by
  refine hinv.outside_allocated ?_
  rw [AsyncSystem.outside, List.append_assoc]
  exact List.mem_append_left _ hx

theorem grabbed_allocated (hinv : AsyncInv s) {x : EventId}
    (hx : (∃ w ∈ s.workers, x ∈ w.grabbed) ∨ ∃ y ∈ s.completions, x ∈ y.grabbed) :
    x ∈ allocated s.conn.log := by
  refine hinv.outside_allocated ?_
  rw [AsyncSystem.outside, List.append_assoc]
  refine List.mem_append_right _ ?_
  rcases hx with ⟨w, hw, hx⟩ | ⟨y, hy, hx⟩
  · exact List.mem_append_left _ (List.mem_flatMap.mpr ⟨w, hw, hx⟩)
  · exact List.mem_append_right _ (List.mem_flatMap.mpr ⟨y, hy, hx⟩)

/-- What a thread works on is in the slot of its class. -/
theorem slot_of_processing (hinv : AsyncInv s) {x : EventId} (hx : x ∈ s.processing) :
    s.conn.activeEvent.get (s.conn.classOf x) = some x := by
  have h1 := List.count_pos_iff.mpr hx
  rw [hinv.processing x] at h1
  obtain ⟨k, hk⟩ := Slots.mem_occupied.mp (List.count_pos_iff.mp h1)
  have hclass : s.conn.classOf x = k := hinv.queue.slot.slot_class k x hk
  rw [hclass]
  exact hk

/-- What is in a slot is worked on. -/
theorem processing_of_slot (hinv : AsyncInv s) {k : ConnEventClass} {x : EventId}
    (hk : s.conn.activeEvent.get k = some x) : x ∈ s.processing := by
  have h1 := List.count_pos_iff.mpr (Slots.mem_occupied.mpr ⟨k, hk⟩)
  rw [← hinv.processing x] at h1
  exact List.count_pos_iff.mp h1

theorem busy_of_slot (hinv : AsyncInv s) {k : ConnEventClass} {x : EventId}
    (hk : s.conn.activeEvent.get k = some x) :
    s.conn.state = .asynchronousClient ∨ s.conn.state = .asynchronousEngine := by
  have hne : ¬ (view s.conn).Inactive := fun h => by
    have := (h k).symm.trans hk
    cases this
  rcases hinv.queue.state.async with hs | hs | hs | hs
  · exact absurd (hinv.queue.state.idle hs).2.1 hne
  · exact .inl hs
  · exact .inr hs
  · exact absurd (hinv.queue.state.complete hs).2.1 hne

/-- The event of a thread inside `ConnEventsProcess` that still owns it. -/
theorem slot_of_worker (hinv : AsyncInv s) {w : Worker} (hw : w ∈ s.workers)
    (hh : w.stage.holding = true) :
    s.conn.activeEvent.get (s.conn.classOf w.event) = some w.event :=
  hinv.slot_of_processing (AsyncSystem.processing_of_worker hw hh)

theorem worker_allocated (hinv : AsyncInv s) {w : Worker} (hw : w ∈ s.workers)
    (hh : w.stage.holding = true) : w.event ∈ allocated s.conn.log :=
  hinv.queue.slot.slot_allocated _ _ (hinv.slot_of_worker hw hh)

theorem slot_of_callback (hinv : AsyncInv s) {cb : Callback} (hcb : cb ∈ s.callbacks) :
    s.conn.activeEvent.get (s.conn.classOf cb.event) = some cb.event :=
  hinv.slot_of_processing (AsyncSystem.processing_of_callback hcb)

/-- Another thread that owns its event owns another event. -/
theorem event_ne (hinv : AsyncInv s) {w w' : Worker} (hw : w ∈ s.workers)
    (hw' : w' ∈ s.workers.erase w) (hh : w.stage.holding = true) (hh' : w'.stage.holding = true) :
    w'.event ≠ w.event := by
  intro heq
  have h1 := hinv.processing_le_one w.event
  have h2 := count_flatMap_erase hw Worker.owned w.event
  have h3 : 0 < ((s.workers.erase w).flatMap Worker.owned).count w.event := by
    refine List.count_pos_iff.mpr (List.mem_flatMap.mpr ⟨w', hw', ?_⟩)
    rw [Worker.owned, Stage.owned, hh', heq]
    exact List.mem_singleton.mpr rfl
  have h4 : (Worker.owned w).count w.event = 1 := by
    rw [Worker.owned, Stage.owned, hh]
    simp
  simp only [AsyncSystem.processing, AsyncSystem.owned, List.count_append] at h1
  omega

end AsyncInv

/-! ### A hold of the event lock -/

/-- The event lock leaves the events in the engine. -/
theorem Owned.linked {c c' : Conn} {given taken : List EventId} (h : Owned c given c' taken) :
    c'.sp.linked = c.sp.linked := by
  have harg : ∀ k, (c'.sp.event.get k).arg = (c.sp.event.get k).arg := by
    intro k
    rcases h.socket k with heq | heq <;> rw [heq]
    exact SocketEvent.kill_arg _
  simp only [SOCK.linked]
  rw [show c'.sp.event.connect.arg = _ from harg .connect,
    show c'.sp.event.receive.arg = _ from harg .receive,
    show c'.sp.event.send.arg = _ from harg .send]
  rfl

theorem Owned.socketOk {c c' : Conn} {given taken : List EventId} (h : Owned c given c' taken)
    (hok : c.sp.Ok) : c'.sp.Ok := by
  intro k
  rcases h.socket k with heq | heq <;> rw [heq]
  · exact hok k
  · exact (hok k).kill

namespace AsyncInv

variable {s : AsyncSystem} {P : Prop}

/-- Events the caller keeps are still not accepted. -/
theorem caller_fresh_of_owned (hinv : AsyncInv s) {c' : Conn} {given taken : List EventId}
    (h : Owned s.conn given c' taken) {x : EventId} (hx : x ∈ s.caller ++ s.refused)
    (hg : x ∉ given) : x ∉ accepted c'.log := by
  intro hacc
  rcases h.accepts x hacc with h1 | h1 | h1
  · exact hinv.caller_fresh x hx h1
  · exact hg h1
  · exact h1 (hinv.caller_allocated hx)

/-- The result a thread brings back is not touched by others. -/
theorem returned_of_owned (hinv : AsyncInv s) {c' : Conn} {given taken : List EventId}
    (h : Owned s.conn given c' taken) {w : Worker} (hw : w ∈ s.workers) {st : ConnEventStatus}
    (hst : w.stage = .returned st) :
    st = .inProgress ∨ (st.Final ∧ (c'.events w.event).status = st) := by
  rcases hinv.returned w hw st hst with h1 | ⟨h1, h2⟩
  · exact .inl h1
  · right
    have hh : w.stage.holding = true := by
      rw [hst]
      cases st <;> first | rfl | exact absurd rfl h1.2
    have hacc := hinv.queue.active_accepted _ _ (hinv.slot_of_worker hw hh)
    exact ⟨h1, (h.status _ hacc).trans h2⟩

/-- **A hold of the event lock in which no thread enters or leaves.** -/
theorem of_lock (hinv : AsyncInv s) {s' : AsyncSystem} {taken : List EventId}
    (h : LockEffect P s.conn [] s'.conn taken)
    (hactive : s'.conn.activeEvent = s.conn.activeEvent)
    (hthreads : s'.conn.transaction.threads = s.conn.transaction.threads)
    (hworkers : s'.workers = s.workers) (hcallbacks : s'.callbacks = s.callbacks)
    (hcompleting : s'.completions.count .starting =
      if s'.conn.state = .asynchronousEngineComplete then 1 else 0)
    (houtside : ∀ x, s'.outside.count x = s.outside.count x + taken.count x)
    (hcaller : ∀ x ∈ s'.caller ++ s'.refused, x ∉ accepted s'.conn.log) : AsyncInv s' := by
  refine ⟨h.wf, h.inv hinv.queue, ?_, hcompleting, fun x => ?_, fun x => ?_, hcaller,
    fun w hw st hst => ?_, h.socketOk hinv.socket⟩
  · rw [hthreads, hworkers, hinv.threads]
  · rw [AsyncSystem.processing, AsyncSystem.owned, hworkers, hcallbacks, h.linked, hactive]
    exact hinv.processing x
  · have h1 := h.ledger x
    have h2 := hinv.ledger x
    have h3 := houtside x
    rw [freed_of_releases h.released]
    simp only [List.count_nil] at h1
    omega
  · exact hinv.returned_of_owned h.toOwned (hworkers ▸ hw) hst

/-- A call that neither starts nor ends anything. -/
theorem of_steady (hinv : AsyncInv s) {c' : Conn} (h : LockEffect P s.conn [] c' [])
    (hactive : c'.activeEvent = s.conn.activeEvent)
    (hthreads : c'.transaction.threads = s.conn.transaction.threads)
    (hcomplete : c'.state = .asynchronousEngineComplete ↔
      s.conn.state = .asynchronousEngineComplete) : AsyncInv { s with conn := c' } := by
  refine hinv.of_lock h hactive hthreads rfl rfl ?_ (fun x => rfl) fun x hx =>
    hinv.caller_fresh_of_owned h.toOwned hx (by simp)
  show s.completions.count .starting = if c'.state = _ then 1 else 0
  rw [hinv.completing]
  simp only [hcomplete]

/-- **A hold of the event lock that ends in `ConnEventsProcess`.**  `s₀` is the system without the
thread that took the lock. -/
theorem of_outcome (hinv : AsyncInv s) {s₀ : AsyncSystem} {r : Outcome × Conn}
    {given : List EventId} {connEvent : Option EventId}
    (h : LockEffect P s.conn given r.2 r.1.freeList)
    (hthreads : r.2.transaction.threads = s₀.workers.length + r.1.threads)
    (hactive : ∀ x, r.2.activeEvent.occupied.count x + connEvent.toList.count x =
      s.conn.activeEvent.occupied.count x + r.1.events.count x)
    (hcomplete : r.2.state = .asynchronousEngineComplete ↔ r.1 = .leave false)
    (hcompletions : s₀.completions = s.completions)
    (hstate : s.conn.state ≠ .asynchronousEngineComplete)
    (howned : ∀ x, s₀.owned.count x + connEvent.toList.count x = s.owned.count x)
    (hout : ∀ x, s₀.outside.count x + given.count x = s.outside.count x)
    (hcaller : ∀ x ∈ s₀.caller ++ s₀.refused, x ∈ s.caller ++ s.refused ∧ x ∉ given)
    (hworkers : ∀ w ∈ s₀.workers, w ∈ s.workers) : AsyncInv (s₀.outcome r) := by
  obtain ⟨o, c'⟩ := r
  have hfreed : freed c'.log = freed s.conn.log := freed_of_releases h.released
  have hcount : s.completions.count .starting = 0 := by
    rw [hinv.completing, if_neg hstate]
  have hcallers : ∀ x ∈ s₀.caller ++ s₀.refused, x ∉ accepted c'.log := fun x hx =>
    hinv.caller_fresh_of_owned h.toOwned (hcaller x hx).1 (hcaller x hx).2
  have hreturned : ∀ w ∈ s₀.workers, ∀ st, w.stage = .returned st →
      st = .inProgress ∨ (st.Final ∧ (c'.events w.event).status = st) := fun w hw st hst =>
    hinv.returned_of_owned h.toOwned (hworkers w hw) hst
  have hprocessing : ∀ x, s₀.owned.count x + o.events.count x + c'.sp.linked.count x =
      c'.activeEvent.occupied.count x := by
    intro x
    have h1 := hinv.processing x
    have h2 := hactive x
    have h3 := howned x
    rw [h.linked]
    simp only [AsyncSystem.processing, List.count_append] at h1
    simp only [] at h2
    omega
  have hledger : ∀ x, c'.held.count x + (s₀.outside.count x + o.freeList.count x) +
      (freed c'.log).count x = (allocated c'.log).count x := by
    intro x
    have h1 := hinv.ledger x
    have h2 := h.ledger x
    have h3 := hout x
    rw [hfreed]
    simp only [] at h2
    omega
  match o, h, hthreads, hcomplete, hprocessing, hledger with
  | .work e freeList, h, hthreads, hcomplete, hprocessing, hledger =>
    refine ⟨h.wf, h.inv hinv.queue, hthreads, ?_, fun x => ?_, fun x => ?_, hcallers,
      fun w hw st hst => ?_, h.socketOk hinv.socket⟩
    · show s₀.completions.count .starting = if c'.state = _ then 1 else 0
      rw [hcompletions, hcount, if_neg]
      intro hc
      cases hcomplete.mp hc
    · refine Eq.trans ?_ (hprocessing x)
      simp only [AsyncSystem.processing, AsyncSystem.owned, AsyncSystem.outcome, List.flatMap_cons,
        List.count_append, Outcome.events]
      show [e].count x + _ + _ + _ = _
      omega
    · refine Eq.trans ?_ (hledger x)
      simp only [AsyncSystem.outside, AsyncSystem.outcome, List.flatMap_cons, List.count_append,
        Outcome.freeList]
      show _ + (_ + _ + (freeList.count x + _) + _) + _ = _
      omega
    · rcases List.mem_cons.mp hw with rfl | hw
      · cases hst
      · exact hreturned w hw st hst
  | .leave true, h, hthreads, hcomplete, hprocessing, hledger =>
    refine ⟨h.wf, h.inv hinv.queue, hthreads, ?_, fun x => ?_, hledger, hcallers, hreturned,
      h.socketOk hinv.socket⟩
    · show s₀.completions.count .starting = if c'.state = _ then 1 else 0
      rw [hcompletions, hcount, if_neg]
      intro hc
      cases hcomplete.mp hc
    · refine Eq.trans ?_ (hprocessing x)
      simp only [AsyncSystem.processing, AsyncSystem.owned, AsyncSystem.outcome, List.count_append,
        Outcome.events, List.count_nil]
      omega
  | .leave false, h, hthreads, hcomplete, hprocessing, hledger =>
    refine ⟨h.wf, h.inv hinv.queue, hthreads, ?_, fun x => ?_, fun x => ?_, hcallers, hreturned,
      h.socketOk hinv.socket⟩
    · show (.starting :: s₀.completions).count .starting = if c'.state = _ then 1 else 0
      rw [List.count_cons_self, hcompletions, hcount, if_pos (hcomplete.mpr rfl)]
    · refine Eq.trans ?_ (hprocessing x)
      simp only [AsyncSystem.processing, AsyncSystem.owned, AsyncSystem.outcome, List.count_append,
        Outcome.events, List.count_nil]
      omega
    · refine Eq.trans ?_ (hledger x)
      simp only [AsyncSystem.outside, AsyncSystem.outcome, List.flatMap_cons, List.count_append,
        Outcome.freeList, List.count_nil]
      show _ + (_ + _ + _ + ([].count x + _)) + _ = _
      simp only [List.count_nil]
      omega

/-! ### A step without the event lock -/

/-- **A step between two holds of the event lock.** -/
theorem of_quiet (hinv : AsyncInv s) {s' : AsyncSystem} (h : Quiet s.conn s'.conn)
    (hworkers : s'.workers.length = s.workers.length)
    (hcompletions : s'.completions.count .starting = s.completions.count .starting)
    (hsocket : s'.conn.sp.Ok) (hprocessing : ∀ x, s'.processing.count x = s.processing.count x)
    (houtside : ∀ x, s'.outside.count x + (freed s'.conn.log).count x =
      s.outside.count x + (freed s.conn.log).count x)
    (hcaller : ∀ x ∈ s'.caller ++ s'.refused, x ∈ s.caller ++ s.refused)
    (hreturned : ∀ w ∈ s'.workers, ∀ st, w.stage = .returned st →
      st = .inProgress ∨ (st.Final ∧ (s'.conn.events w.event).status = st)) : AsyncInv s' := by
  obtain ⟨halloc, hacc⟩ := h.projections
  refine ⟨h.wf hinv.wf, queueInv_reachable hinv.queue (h.refines (P := True)), ?_, ?_, fun x => ?_,
    fun x => ?_, fun x hx => ?_, hreturned, hsocket⟩
  · rw [h.transaction, hworkers, hinv.threads]
  · rw [hcompletions, h.state, hinv.completing]
  · rw [hprocessing x, h.activeEvent, hinv.processing x]
  · have h1 := houtside x
    have h2 := hinv.ledger x
    rw [h.held, halloc]
    omega
  · rw [hacc]
    exact hinv.caller_fresh x (hcaller x hx)

/-- Only the socket changes, and the events in the engine stay. -/
theorem of_socket (hinv : AsyncInv s) {sp : SOCK} (hok : sp.Ok)
    (hlinked : ∀ x, sp.linked.count x = s.conn.sp.linked.count x) :
    AsyncInv { s with conn := { s.conn with sp := sp } } := by
  refine hinv.of_quiet (.socket s.conn sp) rfl rfl hok (fun x => ?_) (fun x => rfl) (fun x hx => hx)
    hinv.returned
  show (s.owned ++ sp.linked).count x = (s.owned ++ s.conn.sp.linked).count x
  rw [List.count_append, List.count_append, hlinked x]

/-- **A thread inside `ConnEventsProcess` makes its next step (proved).** -/
theorem of_work (hinv : AsyncInv s) {w : Worker} (hw : w ∈ s.workers) {c' : Conn} {stage' : Stage}
    (h : LocalStep s.conn w.event w.stage c' stage') :
    AsyncInv { s with conn := c', workers := ⟨w.event, stage'⟩ :: s.workers.erase w } := by
  refine hinv.of_quiet h.quiet ?_ rfl h.socket (fun x => ?_) (fun x => ?_) (fun x hx => hx)
    fun w' hw' st hst => ?_
  · show (s.workers.erase w).length + 1 = s.workers.length
    rw [List.length_erase_of_mem hw]
    have := List.length_pos_of_mem hw
    omega
  · have h1 := h.linked x
    have h2 := count_flatMap_erase hw Worker.owned x
    have h3 : (Worker.owned w).count x = [w.event].count x := by
      rw [Worker.owned, Stage.owned, h.holding, if_pos rfl]
    show ((stage'.owned w.event ++ (s.workers.erase w).flatMap Worker.owned ++
      s.callbacks.flatMap fun cb => [cb.event]) ++ c'.sp.linked).count x = s.processing.count x
    simp only [AsyncSystem.processing, AsyncSystem.owned, List.count_append]
    omega
  · have h1 := congrArg (List.count x) h.frees
    have h2 := count_flatMap_erase hw Worker.grabbed x
    have h3 : (Worker.grabbed w).count x = w.stage.freeList.count x := rfl
    show (s.caller ++ s.refused ++ (stage'.freeList ++ (s.workers.erase w).flatMap Worker.grabbed) ++
      s.completions.flatMap Completion.grabbed).count x + (freed c'.log).count x = _
    rw [h.freeList]
    simp only [AsyncSystem.outside, List.count_append, List.count_reverse, List.count_nil] at h1 ⊢
    omega
  · rcases List.mem_cons.mp hw' with rfl | hw'
    · exact h.returned st hst
    · rcases hinv.returned w' (List.mem_of_mem_erase hw') st hst with h1 | ⟨h1, h2⟩
      · exact .inl h1
      · have hh : w'.stage.holding = true := by
          rw [hst]
          cases st <;> first | rfl | exact absurd rfl h1.2
        have hne := hinv.event_ne hw hw' h.holding hh
        exact .inr ⟨h1, (h.status _ hne).trans h2⟩

/-- `HandleSocketEvent`: the event is with its callback thread. -/
theorem of_handle (hinv : AsyncInv s) {k : ConnEventClass} {e : EventId} {type : SocketEventType}
    {error : Errno} {sp : SOCK} (h : handleSocketEvent s.conn.sp k = some (e, type, error, sp)) :
    AsyncInv { s with
      conn := { s.conn with sp := sp }
      callbacks := ⟨e, type, error, false⟩ :: s.callbacks } := by
  obtain ⟨hok, hlinked, _⟩ := handleSocketEvent_some hinv.socket h
  refine hinv.of_quiet (.socket s.conn sp) rfl rfl hok (fun x => ?_) (fun x => rfl) (fun x hx => hx)
    hinv.returned
  have h1 := hlinked x
  show ((s.workers.flatMap Worker.owned ++ ([e] ++ s.callbacks.flatMap fun cb => [cb.event])) ++
    sp.linked).count x = s.processing.count x
  simp only [AsyncSystem.processing, AsyncSystem.owned, List.count_append]
  omega

/-- `AsyncEventCallback` writes the error of the event. -/
theorem of_store (hinv : AsyncInv s) {cb : Callback} (hcb : cb ∈ s.callbacks) (error : Errno) :
    AsyncInv { s with
      conn := s.conn.setError cb.event error
      callbacks := { cb with stored := true } :: s.callbacks.erase cb } := by
  refine hinv.of_quiet (.setError s.conn cb.event error) rfl rfl hinv.socket (fun x => ?_)
    (fun x => rfl) (fun x hx => hx) fun w hw st hst => ?_
  · have h1 := count_flatMap_erase hcb (fun cb => [cb.event]) x
    show ((s.workers.flatMap Worker.owned ++ ([cb.event] ++
      (s.callbacks.erase cb).flatMap fun cb => [cb.event])) ++ s.conn.sp.linked).count x =
        s.processing.count x
    simp only [AsyncSystem.processing, AsyncSystem.owned, List.count_append]
    omega
  · refine (hinv.returned w hw st hst).imp_right fun h => ⟨h.1, Eq.trans ?_ h.2⟩
    by_cases hx : w.event = cb.event <;> simp [Conn.setError, Conn.setEvent, hx]

/-- `CallbackAsyncConsumer` destroys the free list. -/
theorem of_destroy (hinv : AsyncInv s) {summary : AsyncSummary} {freeList : List EventId}
    {mark : List LogEntry} (hx : .destroying summary freeList mark ∈ s.completions) :
    AsyncInv { s with
      conn := connEventFreeListDestroy s.conn freeList
      completions := .calling summary mark ::
        s.completions.erase (.destroying summary freeList mark) } := by
  obtain ⟨hstatus, _, hfreed, hsocket⟩ := connEventFreeListDestroy_spec freeList s.conn
  refine hinv.of_quiet (connEventFreeListDestroy_quiet freeList s.conn) rfl ?_
    (hinv.socket.of_event hsocket) (fun x => ?_) (fun x => ?_) (fun x hx => hx)
    fun w hw st hst => ?_
  · show (.calling summary mark :: s.completions.erase _).count .starting = _
    rw [List.count_cons_of_ne (by simp), List.count_erase_of_ne (by simp)]
  · show (s.owned ++ (connEventFreeListDestroy s.conn freeList).sp.linked).count x = _
    rw [SOCK.linked_of_event hsocket]
    rfl
  · have h1 := count_flatMap_erase hx Completion.grabbed x
    have h2 : (Completion.grabbed (.destroying summary freeList mark)).count x =
      freeList.count x := rfl
    show (s.caller ++ s.refused ++ s.workers.flatMap Worker.grabbed ++ ([] ++
      (s.completions.erase (.destroying summary freeList mark)).flatMap
        Completion.grabbed)).count x + _ = _
    rw [hfreed]
    simp only [AsyncSystem.outside, List.count_append, List.count_reverse, List.count_nil]
    omega
  · refine (hinv.returned w hw st hst).imp_right fun h => ⟨h.1, Eq.trans ?_ h.2⟩
    exact hstatus w.event

/-- `CallbackAsyncConsumer` calls the consumer. -/
theorem of_call (hinv : AsyncInv s) {summary : AsyncSummary} {mark : List LogEntry}
    (hx : .calling summary mark ∈ s.completions) :
    AsyncInv { s with
      conn := callbackAsyncConsumer s.conn summary
      completions := s.completions.erase (.calling summary mark) } := by
  refine hinv.of_quiet ((Quiet.refl s.conn).note rfl) rfl ?_ hinv.socket (fun x => rfl)
    (fun x => ?_) (fun x hx => hx) hinv.returned
  · show (s.completions.erase _).count .starting = _
    rw [List.count_erase_of_ne (by simp)]
  · have h1 := count_flatMap_erase hx Completion.grabbed x
    have h2 : (Completion.grabbed (.calling summary mark)).count x = 0 := rfl
    show (s.caller ++ s.refused ++ s.workers.flatMap Worker.grabbed ++
      (s.completions.erase (.calling summary mark)).flatMap Completion.grabbed).count x +
        (freed s.conn.log).count x = _
    simp only [AsyncSystem.outside, List.count_append]
    omega

/-- A caller frees an event that was not queued. -/
theorem of_free (hinv : AsyncInv s) {e : EventId} {caller refused : List EventId}
    (hcount : ∀ x, (caller ++ refused).count x + [e].count x = (s.caller ++ s.refused).count x) :
    AsyncInv { s with conn := connEventFree s.conn e, caller := caller, refused := refused } := by
  have hm := connEventFreeResources_mild s.conn e
  have hfreed : freed (connEventFree s.conn e).log = e :: freed s.conn.log := by
    rw [← hm.freed]
    rfl
  refine hinv.of_quiet (connEventFree_quiet s.conn e) rfl rfl (hinv.socket.of_event hm.socket)
    (fun x => ?_) (fun x => ?_) (fun x hx => ?_) fun w hw st hst => ?_
  · show (s.owned ++ (connEventFreeResources s.conn e).sp.linked).count x = _
    rw [SOCK.linked_of_event hm.socket]
    rfl
  · have h1 := hcount x
    show (caller ++ refused ++ s.workers.flatMap Worker.grabbed ++
      s.completions.flatMap Completion.grabbed).count x + _ = _
    rw [hfreed]
    simp only [AsyncSystem.outside, List.count_append, List.count_cons, List.count_nil] at h1 ⊢
    omega
  · refine List.count_pos_iff.mp ?_
    rw [← hcount x]
    exact Nat.add_pos_left (List.count_pos_iff.mpr hx) _
  · refine (hinv.returned w hw st hst).imp_right fun h => ⟨h.1, Eq.trans ?_ h.2⟩
    exact hm.status w.event

end AsyncInv

/-! ### Calls that enter `ConnEventsProcess` -/

/-- **The steps that do not strand queued events:** a partial result, or the refusal of an event while the
handle is shutting down, is recorded as the problem of the transaction only when nothing is queued. -/
def StepSafe (s : AsyncSystem) : AsyncAction → Prop
  | .enqueue (some e) allocs _ => queueingPermitted s.conn = true → EnqueueSafe s.conn e allocs
  | .relock w => w.stage = .returned .partialResult → s.conn.transaction.problem = none →
      s.conn.queued = []
  | _ => True

instance (s : AsyncSystem) : (a : AsyncAction) → Decidable (StepSafe s a)
  | .enqueue (some e) allocs _ =>
    inferInstanceAs (Decidable (queueingPermitted s.conn = true → EnqueueSafe s.conn e allocs))
  | .relock w => inferInstanceAs (Decidable (w.stage = .returned .partialResult →
      s.conn.transaction.problem = none → s.conn.queued = []))
  | .alloc _ _ | .enqueue none _ _ | .enqueueFailure _ _ | .submit _ _ _ | .kill _ | .handleAbort _
  | .writeAbort _ | .shuttingDown | .waitForSubmit _ | .sendBuffer _ _ | .free _ | .work _ _
  | .pollReady _ _ | .pollTimeout _ | .handle _ | .store _ | .enter _ | .prepare | .destroy _
  | .call _ => .isTrue trivial

theorem Allocs.fresh_iff {allocs : Allocs} {c : Conn} (h : allocs.fresh c.log = true) :
    allocs.Fresh c := by
  simp only [Allocs.fresh, Bool.and_eq_true, Option.all_eq_true, decide_eq_true_eq] at h
  exact ⟨fun f hf => h.1.1 f hf, fun d hd => h.1.2 d hd, fun f hf => h.2 f hf⟩

theorem ConnEvent.assigned_iff {ce : ConnEvent} (h : ce.assigned = true) : ce.Assigned := by
  simp only [ConnEvent.assigned, Bool.and_eq_true, decide_eq_true_eq] at h
  exact ⟨h.1.2, h.2⟩

/-- **What a step does to the conn:** a hold of the event lock, or a change the queue does not see. -/
inductive Change (P : Prop) (s s' : AsyncSystem) : Prop
  | lock {given taken : List EventId} (effect : LockEffect P s.conn given s'.conn taken)
      (given_caller : ∀ x ∈ given, x ∈ s.caller)
  | quiet (quiet : Quiet s.conn s'.conn)
      (balanced : Balanced (fun x => x ∈ allocated s.conn.log) s.conn s'.conn)

theorem Change.refines {P : Prop} {s s' : AsyncSystem} (h : Change P s s') :
    Refines P s.conn s'.conn := by
  cases h with
  | lock effect _ => exact effect.refines
  | quiet quiet _ => exact quiet.refines

@[simp] theorem AsyncSystem.outcome_conn (s : AsyncSystem) (r : Outcome × Conn) :
    (s.outcome r).conn = r.2 := by
  obtain ⟨o, c'⟩ := r
  rcases o with _ | (_ | _) <;> rfl

namespace AsyncInv

variable {s : AsyncSystem} {P : Prop}

/-- `EventEnqueue` refuses an event: it stays with its caller. -/
theorem of_refuse (hinv : AsyncInv s) {e : EventId} (he : e ∈ s.caller) :
    AsyncInv { s with
      conn := s.conn.note (.refuse e)
      caller := s.caller.erase e
      refused := e :: s.refused } := by
  have hcount : ∀ x, (s.caller.erase e ++ e :: s.refused).count x =
      (s.caller ++ s.refused).count x := by
    intro x
    have h1 := (List.perm_cons_erase he).count_eq x
    simp only [List.count_append, List.count_cons] at h1 ⊢
    omega
  refine hinv.of_quiet ((Quiet.refl s.conn).note rfl) rfl rfl hinv.socket (fun x => rfl)
    (fun x => ?_) (fun x hx => ?_) hinv.returned
  · have h1 := hcount x
    show (s.caller.erase e ++ e :: s.refused ++ s.workers.flatMap Worker.grabbed ++
      s.completions.flatMap Completion.grabbed).count x + (freed s.conn.log).count x = _
    simp only [AsyncSystem.outside, List.count_append] at h1 ⊢
    omega
  · exact List.count_pos_iff.mp (hcount x ▸ List.count_pos_iff.mpr hx)

/-- **`EventEnqueue` (proved).** -/
theorem enqueue (hinv : AsyncInv s) {connEvent : Option EventId} {allocs : Allocs}
    {source : CodeSource} (hcaller : ∀ e, connEvent = some e → e ∈ s.caller)
    (hnew : allocs.Fresh s.conn)
    (hsafe : P → ∀ e, connEvent = some e → queueingPermitted s.conn = true →
      EnqueueSafe s.conn e allocs) :
    AsyncInv (s.enqueue connEvent allocs source) ∧
      Change P s (s.enqueue connEvent allocs source) := by
  have halloc : ∀ e, connEvent = some e → e ∈ allocated s.conn.log ∧ e ∉ accepted s.conn.log :=
    fun e he => hinv.caller_new (hcaller e he)
  unfold AsyncSystem.enqueue
  cases hr : eventEnqueue s.conn connEvent allocs source with
  | none =>
    cases connEvent with
    | none => exact ⟨hinv, .quiet (.refl _) (.refl _)⟩
    | some e =>
      exact ⟨hinv.of_refuse (hcaller e rfl), .quiet ((Quiet.refl s.conn).note rfl)
        (.of_resources rfl fun _ => rfl)⟩
  | some r =>
    have heff := eventEnqueue_effect hinv.wf hinv.queue halloc hnew hr hsafe
    have hne : s.conn.state ≠ .asynchronousEngineComplete := by
      intro hst
      rw [eventEnqueue, queueingPermitted, hst] at hr
      cases hr
    refine ⟨hinv.of_outcome heff.effect ?_ heff.active heff.complete rfl hne (fun x => rfl)
      (fun x => ?_) (fun x hx => ?_) (fun w hw => hw), ?_⟩
    · rw [heff.threads, hinv.threads]
    · cases connEvent with
      | none => rfl
      | some e =>
        have h1 := (List.perm_cons_erase (hcaller e rfl)).count_eq x
        simp only [AsyncSystem.outside, Option.elim_some, Option.toList_some, List.count_append,
          List.count_cons, List.count_nil] at h1 ⊢
        omega
    · cases connEvent with
      | none => exact ⟨hx, by simp⟩
      | some e =>
        have hmem := hcaller e rfl
        have hx' : x ∈ s.caller.erase e ++ s.refused := hx
        refine ⟨?_, fun hxe => ?_⟩
        · rcases List.mem_append.mp hx' with h1 | h1
          · exact List.mem_append_left _ (List.mem_of_mem_erase h1)
          · exact List.mem_append_right _ h1
        · rw [Option.toList_some, List.mem_singleton] at hxe
          subst hxe
          have hone := hinv.ledger_le_one x
          have h1 := (List.perm_cons_erase hmem).count_eq x
          have h2 := List.count_pos_iff.mpr hx'
          simp only [AsyncSystem.outside, List.count_append, List.count_cons_self] at h1 h2 hone
          omega
    · refine .lock (by rw [AsyncSystem.outcome_conn]; exact heff.effect) fun x hx => ?_
      cases connEvent with
      | none => cases hx
      | some e =>
        rw [Option.toList_some, List.mem_singleton] at hx
        exact hx ▸ hcaller e rfl

/-- **`EventsSubmit` (proved).** -/
theorem submit (hinv : AsyncInv s) {qFailure : Bool} {client : ℕ} {source : CodeSource}
    {r : Outcome × Conn} (hr : eventsSubmit s.conn qFailure client source = some r) :
    AsyncInv (s.outcome r) ∧ Change P s (s.outcome r) := by
  have heff := eventsSubmit_effect (P := P) hinv.wf hr
  have hne : s.conn.state ≠ .asynchronousEngineComplete := by
    intro hst
    simp only [eventsSubmit, submitProblem, hst] at hr
    cases hr
  refine ⟨hinv.of_outcome heff.effect ?_ heff.active heff.complete rfl hne (fun x => rfl)
    (fun x => rfl) (fun x hx => ⟨hx, by simp⟩) (fun w hw => hw),
    .lock (by rw [AsyncSystem.outcome_conn]; exact heff.effect) (by simp)⟩
  rw [heff.threads, hinv.threads]

/-- **`AsyncEventCallback` takes the event lock (proved).** -/
theorem enter (hinv : AsyncInv s) {cb : Callback} (hcb : cb ∈ s.callbacks) :
    AsyncInv ({ s with callbacks := s.callbacks.erase cb }.outcome
      (connEventsProcess s.conn (some cb.event))) ∧
      Change P s ({ s with callbacks := s.callbacks.erase cb }.outcome
        (connEventsProcess s.conn (some cb.event))) := by
  have hbusy := hinv.busy_of_slot (hinv.slot_of_callback hcb)
  have hne : s.conn.state ≠ .asynchronousEngineComplete := by
    rcases hbusy with hb | hb <;> rw [hb] <;> simp
  have heff := connEventsProcess_effect (P := P) hinv.wf hbusy (some cb.event)
  refine ⟨hinv.of_outcome heff.effect ?_ heff.active heff.complete rfl hne (fun x => ?_)
    (fun x => rfl) (fun x hx => ⟨hx, by simp⟩) fun w hw => hw,
    .lock (by rw [AsyncSystem.outcome_conn]; exact heff.effect) (by simp)⟩
  · rw [heff.threads, hinv.threads]
  · have h1 := count_flatMap_erase hcb (fun cb => [cb.event]) x
    simp only [AsyncSystem.owned, List.count_append, Option.toList_some] at h1 ⊢
    omega

/-- A thread comes back from `ConnEventProcess`: its event has a result exactly when the thread still owns it. -/
theorem relock_effect (hinv : AsyncInv s) {w : Worker} (hw : w ∈ s.workers) {st : ConnEventStatus}
    (hst : w.stage = .returned st)
    (hsafe : P → st = .partialResult → s.conn.transaction.problem = none → s.conn.queued = []) :
    ProcessEffect P s.conn (w.stage.owned w.event).head? (connEventsProcessRelock s.conn w.event st) ∧
      (w.stage.owned w.event).head?.toList = w.stage.owned w.event := by
  have hpos : 0 < s.conn.transaction.threads := by
    rw [hinv.threads]
    exact List.length_pos_of_mem hw
  have hbusy := hinv.queue.state.busy_of_threads hpos
  rcases hinv.returned w hw st hst with rfl | ⟨hfinal, hstatus⟩
  · rw [hst]
    exact ⟨connEventsProcessLoop_effect hinv.wf hpos hbusy none, rfl⟩
  · have hh : w.stage.holding = true := by
      rw [hst]
      cases st <;> first | rfl | exact absurd rfl hfinal.2
    rw [Stage.owned, hh]
    exact ⟨connEventsProcessRelock_effect hinv.wf hinv.queue (hinv.slot_of_worker hw hh) hpos
      hstatus hfinal hsafe, rfl⟩

/-- **A thread comes back from `ConnEventProcess` (proved).** -/
theorem relock (hinv : AsyncInv s) {w : Worker} (hw : w ∈ s.workers) {st : ConnEventStatus}
    (hst : w.stage = .returned st)
    (hsafe : P → st = .partialResult → s.conn.transaction.problem = none → s.conn.queued = []) :
    AsyncInv ({ s with workers := s.workers.erase w }.outcome
      (connEventsProcessRelock s.conn w.event st)) ∧
      Change P s ({ s with workers := s.workers.erase w }.outcome
        (connEventsProcessRelock s.conn w.event st)) := by
  have hpos : 0 < s.conn.transaction.threads := by
    rw [hinv.threads]
    exact List.length_pos_of_mem hw
  have hbusy := hinv.queue.state.busy_of_threads hpos
  have hne : s.conn.state ≠ .asynchronousEngineComplete := by
    rcases hbusy with hb | hb <;> rw [show s.conn.state = _ from hb] <;> simp
  obtain ⟨heff, hcount⟩ := hinv.relock_effect hw hst hsafe
  refine ⟨hinv.of_outcome heff.effect ?_ heff.active heff.complete rfl hne (fun x => ?_)
    (fun x => ?_) (fun x hx => ⟨hx, by simp⟩) fun w' hw' => List.mem_of_mem_erase hw',
    .lock (by rw [AsyncSystem.outcome_conn]; exact heff.effect) (by simp)⟩
  · have h1 := heff.threads
    have h2 := hinv.threads
    have h3 := List.length_pos_of_mem hw
    show _ = (s.workers.erase w).length + _
    rw [List.length_erase_of_mem hw]
    omega
  · have h1 := count_flatMap_erase hw Worker.owned x
    have h2 : Worker.owned w = w.stage.owned w.event := rfl
    rw [h2] at h1
    rw [hcount]
    simp only [AsyncSystem.owned, List.count_append] at h1 ⊢
    omega
  · have h1 := count_flatMap_erase hw Worker.grabbed x
    have h2 : (Worker.grabbed w).count x = 0 := by
      rw [Worker.grabbed, hst]
      rfl
    simp only [AsyncSystem.outside, List.count_append, List.count_nil] at h1 ⊢
    omega

/-- A thread is about to end the transaction only while the conn is complete. -/
theorem complete_of_starting (hinv : AsyncInv s) (h : .starting ∈ s.completions) :
    s.conn.state = .asynchronousEngineComplete := by
  by_contra hne
  have h1 := hinv.completing
  rw [if_neg hne] at h1
  exact List.count_eq_zero.mp h1 h

/-- **`QueueCompleteCallback` ends the transaction (proved).** -/
theorem prepare (hinv : AsyncInv s) (h : .starting ∈ s.completions) :
    AsyncInv { s with
      conn := (prepareForCallback s.conn).2.2
      completions := .destroying (prepareForCallback s.conn).1 (prepareForCallback s.conn).2.1
        (prepareForCallback s.conn).2.2.log :: s.completions.erase .starting } ∧
      LockEffect P s.conn [] (prepareForCallback s.conn).2.2 (prepareForCallback s.conn).2.1 := by
  have hst := hinv.complete_of_starting h
  have hlock := prepareForCallback_effect (P := P) hinv.queue hst
  refine ⟨hinv.of_lock hlock rfl ?_ rfl rfl ?_ (fun x => ?_) fun x hx =>
    hinv.caller_fresh_of_owned hlock.toOwned hx (by simp), hlock⟩
  · exact ((hinv.queue.state.complete hst).2.2).symm
  · show (.destroying _ _ _ :: s.completions.erase .starting).count .starting = 0
    rw [List.count_cons_of_ne (by simp), List.count_erase_self, hinv.completing, if_pos hst]
  · have h1 := count_flatMap_erase h Completion.grabbed x
    have h2 : (Completion.grabbed .starting).count x = 0 := rfl
    show (s.caller ++ s.refused ++ s.workers.flatMap Worker.grabbed ++
      ((prepareForCallback s.conn).2.1 ++
        (s.completions.erase .starting).flatMap Completion.grabbed)).count x = _
    simp only [AsyncSystem.outside, List.count_append]
    omega

/-- **A new event goes to its caller (proved).** -/
theorem alloc (hinv : AsyncInv s) {e : EventId} {ce : ConnEvent} (hfresh : e ∉ allocated s.conn.log)
    (hassigned : ce.Assigned) :
    AsyncInv { s with
      conn := (s.conn.setEvent e ce).note (.alloc e)
      caller := e :: s.caller } ∧
      LockEffect P s.conn [] ((s.conn.setEvent e ce).note (.alloc e)) [e] := by
  obtain ⟨hlock, hs⟩ := alloc_effect (P := P) hinv.wf hinv.queue hfresh hassigned
  refine ⟨hinv.of_lock hlock hs.active hs.threads rfl rfl hinv.completing (fun x => ?_)
    (fun x hx => ?_), hlock⟩
  · simp only [AsyncSystem.outside, List.count_append, List.count_cons, List.count_nil]
    omega
  · rcases List.mem_cons.mp (show x ∈ e :: (s.caller ++ s.refused) from hx) with rfl | hx
    · exact fun hacc => hfresh (hinv.queue.order.accepted_allocated x hacc)
    · exact hinv.caller_fresh x hx

/-- Fields that are neither events, socket nor history. -/
theorem of_plain (hinv : AsyncInv s) {c' : Conn} (h : Quiet s.conn c') (hsp : c'.sp = s.conn.sp)
    (hevents : c'.events = s.conn.events) (hlog : c'.log = s.conn.log) :
    AsyncInv { s with conn := c' } := by
  refine hinv.of_quiet h rfl rfl ?_ (fun x => ?_) (fun x => ?_) (fun x hx => hx) ?_
  · show c'.sp.Ok
    rw [hsp]
    exact hinv.socket
  · show (s.owned ++ c'.sp.linked).count x = _
    rw [hsp]
    rfl
  · show s.outside.count x + (freed c'.log).count x = _
    rw [hlog]
  · show ∀ w ∈ s.workers, _
    rw [hevents]
    exact hinv.returned

end AsyncInv

/-! ### Every step -/

/-- **One step (proved):** the invariant is kept, and the step is a hold of the event lock, whose abstract
steps are safe when the step is, or does nothing that the queue sees. -/
theorem asyncStep_effect {s s' : AsyncSystem} {a : AsyncAction} (hinv : AsyncInv s)
    (h : asyncStep s a = some s') :
    AsyncInv s' ∧ Change (StepSafe s a) s s' := by
  have hsteady : ∀ c', LockEffect (StepSafe s a) s.conn [] c' [] ∧ Steady s.conn c' →
      AsyncInv { s with conn := c' } ∧ Change (StepSafe s a) s { s with conn := c' } := fun c' h =>
    ⟨hinv.of_steady h.1 h.2.active h.2.threads (by rw [h.2.state]), .lock h.1 (by simp)⟩
  have hcount : ∀ {l : List EventId} {e : EventId}, e ∈ l → ∀ x,
      (l.erase e).count x + [e].count x = l.count x := by
    intro l e he x
    rw [(List.perm_cons_erase he).count_eq x, List.count_cons, List.count_cons, List.count_nil]
    omega
  cases a with
  | alloc e ce =>
    simp only [asyncStep] at h
    split at h <;> cases h
    next hok =>
    obtain ⟨hinv', hlock⟩ := hinv.alloc hok.1 (ConnEvent.assigned_iff hok.2)
    exact ⟨hinv', .lock hlock (by simp)⟩
  | enqueue connEvent allocs source =>
    simp only [asyncStep] at h
    split at h <;> cases h
    next hok =>
    refine hinv.enqueue (fun e he => hok.1 e he) (Allocs.fresh_iff hok.2) ?_
    rintro hP e rfl
    exact hP
  | enqueueFailure errno source =>
    cases h
    obtain ⟨hlock, hact, hth, hcomplete⟩ := eventEnqueueFailure_effect
      (P := StepSafe s (.enqueueFailure errno source)) hinv.wf errno source
    exact ⟨hinv.of_steady hlock hact hth hcomplete, .lock hlock (by simp)⟩
  | submit qFailure client source =>
    simp only [asyncStep] at h
    split at h <;> cases h
    next r hr => exact hinv.submit hr
    · exact ⟨hinv, .quiet (.refl _) (.refl _)⟩
  | kill source =>
    cases h
    exact hsteady _ (connKillEx_effect hinv.wf source)
  | handleAbort source =>
    cases h
    exact hsteady _ (connHandleConnectionsAbort_effect hinv.wf source)
  | writeAbort source =>
    cases h
    exact hsteady _ (eventQueueAbort_effect hinv.wf none _ (.inr (.inl rfl)))
  | shuttingDown =>
    cases h
    have hq : Quiet s.conn { s.conn with shuttingDown := true } := ⟨rfl, rfl, rfl, rfl, rfl, [], by simp, rfl⟩
    exact ⟨hinv.of_plain hq rfl rfl rfl, .quiet hq (.of_resources rfl fun _ => rfl)⟩
  | waitForSubmit wait =>
    cases h
    have hq : Quiet s.conn { s.conn with waitForSubmit := wait } :=
      ⟨rfl, rfl, rfl, rfl, rfl, [], by simp, rfl⟩
    exact ⟨hinv.of_plain hq rfl rfl rfl, .quiet hq (.of_resources rfl fun _ => rfl)⟩
  | sendBuffer async used =>
    cases h
    obtain ⟨hlock, hact, hth, hcomplete⟩ :=
      writeClientData_effect (P := StepSafe s (.sendBuffer async used)) hinv.wf async used
    exact ⟨hinv.of_steady hlock hact hth hcomplete, .lock hlock (by simp)⟩
  | free e =>
    simp only [asyncStep] at h
    split at h
    next he =>
      cases h
      refine ⟨hinv.of_free fun x => ?_, .quiet (connEventFree_quiet s.conn e)
        (connEventFree_balanced s.conn (hinv.caller_allocated (List.mem_append_left _ he)))⟩
      have h1 := hcount he x
      simp only [List.count_append]
      omega
    · split at h <;> cases h
      next he =>
      refine ⟨hinv.of_free fun x => ?_, .quiet (connEventFree_quiet s.conn e)
        (connEventFree_balanced s.conn (hinv.caller_allocated (List.mem_append_right _ he)))⟩
      have h1 := hcount he x
      simp only [List.count_append]
      omega
  | work w m =>
    simp only [asyncStep] at h
    split at h
    next hw =>
      split at h <;> cases h
      next stage c' hstep =>
      have hlocal := eventProcessStep_local hinv.socket hstep
      refine ⟨hinv.of_work hw hlocal, .quiet hlocal.quiet (hlocal.balanced.mono fun x hx => ?_)⟩
      rcases hx with rfl | hx
      · exact hinv.worker_allocated hw hlocal.holding
      · exact hinv.grabbed_allocated (.inl ⟨w, hw, hx⟩)
    · cases h
  | relock w =>
    simp only [asyncStep] at h
    split at h
    next st hst =>
      split at h <;> cases h
      next hw =>
      exact hinv.relock hw hst fun hP hpart => hP (hpart ▸ hst)
    · cases h
  | pollReady k events =>
    cases h
    refine ⟨?_, .quiet (.socket s.conn _) (.of_resources rfl fun _ => rfl)⟩
    rcases pollReady_eq s.conn.sp k events with heq | ⟨error, heq⟩ <;> rw [heq]
    · exact hinv.of_socket hinv.socket fun _ => rfl
    · obtain ⟨hok, hlinked⟩ := hinv.socket.completed k error
      exact hinv.of_socket hok hlinked
  | pollTimeout k =>
    cases h
    obtain ⟨hok, hlinked⟩ := hinv.socket.completed k Errno.etimedout
    exact ⟨hinv.of_socket hok hlinked, .quiet (.socket s.conn _) (.of_resources rfl fun _ => rfl)⟩
  | handle k =>
    simp only [asyncStep] at h
    split at h <;> cases h
    next heq =>
      exact ⟨hinv.of_handle heq, .quiet (.socket s.conn _) (.of_resources rfl fun _ => rfl)⟩
  | store cb =>
    simp only [asyncStep] at h
    split at h <;> cases h
    next hok => exact ⟨hinv.of_store hok.1 _, .quiet (.setError s.conn _ _) (setEvent_balanced rfl)⟩
  | enter cb =>
    simp only [asyncStep] at h
    split at h <;> cases h
    next hok => exact hinv.enter hok.1
  | prepare =>
    simp only [asyncStep] at h
    split at h <;> cases h
    next hmem =>
    obtain ⟨hinv', hlock⟩ := hinv.prepare hmem
    exact ⟨hinv', .lock hlock (by simp)⟩
  | destroy x =>
    simp only [asyncStep] at h
    split at h
    next summary freeList mark =>
      split at h <;> cases h
      next hx =>
        exact ⟨hinv.of_destroy hx, .quiet (connEventFreeListDestroy_quiet _ _)
          (connEventFreeListDestroy_balanced _ (fun y hy =>
            hinv.grabbed_allocated (.inr ⟨_, hx, hy⟩)) _)⟩
    · cases h
  | call x =>
    simp only [asyncStep] at h
    split at h
    next summary mark =>
      split at h <;> cases h
      next hx =>
        exact ⟨hinv.of_call hx, .quiet ((Quiet.refl s.conn).note rfl)
          (.of_resources rfl fun _ => rfl)⟩
    · cases h

/-! ### Whole runs -/

/-- A new conn. -/
theorem AsyncInv.initial {s : AsyncSystem} (h : s.Initial) : AsyncInv s := by
  have hqueued : s.conn.queued = [] := by
    rw [Conn.queued, h.queue]
    rfl
  have hslots : s.conn.activeEvent.occupied = [] := by
    have h1 := h.active .connect
    have h2 := h.active .receive
    have h3 := h.active .send
    simp only [Slots.get] at h1 h2 h3
    rw [Slots.occupied, h1, h2, h3]
    rfl
  have hlinked : s.conn.sp.linked = [] := by
    have h1 := h.socket .connect
    have h2 := h.socket .receive
    have h3 := h.socket .send
    simp only [Slots.get] at h1 h2 h3
    rw [SOCK.linked, h1, h2, h3]
    rfl
  refine ⟨?_, .initial hqueued h.active h.problem h.state h.threads h.log, ?_, ?_, fun x => ?_,
    fun x => ?_, ?_, ?_, fun k => ?_⟩
  · exact (Conn.Wf.of_represents (h.queue ▸ DList.represents_empty)).1
  · rw [h.threads, h.workers]
    rfl
  · rw [h.completions, h.state]
    rfl
  · rw [AsyncSystem.processing, AsyncSystem.owned, h.workers, h.callbacks, hlinked, hslots]
    rfl
  · rw [Conn.held, hqueued, hslots, h.freeList, AsyncSystem.outside, h.caller, h.refused, h.workers,
      h.completions, h.log]
    rfl
  · rw [h.caller, h.refused]
    simp
  · rw [h.workers]
    simp
  · rw [h.socket k]
    exact .initial k

variable {ok : AsyncSystem → AsyncAction → Prop}

/-- **The invariant holds along every run (proved).** -/
theorem asyncInv_reachable {s s' : AsyncSystem} (hinit : s.Initial)
    (h : ReachableVia (enabled asyncStep) ok s s') : AsyncInv s' :=
  h.invariant (P := AsyncInv) (.initial hinit) fun _ _ _ hinv _ hstep =>
    (asyncStep_effect hinv hstep).1

/-- **A run of the system is a run of the abstract queue (proved).** -/
theorem view_reachable {s s' : AsyncSystem} (hinit : s.Initial)
    (h : ReachableVia (enabled asyncStep) ok s s') :
    Reachable QueueStep (view s.conn) (view s'.conn) :=
  h.simulate (fun s => view s.conn) (fun _ hs => asyncInv_reachable hinit hs)
    fun _ _ _ hinv _ hstep => (asyncStep_effect hinv hstep).2.refines.reachable

/-- **A run of safe steps is a run of safe abstract steps (proved).** -/
theorem view_reachable_safe {s s' : AsyncSystem} (hinit : s.Initial)
    (h : ReachableVia (enabled asyncStep) StepSafe s s') :
    ReachableVia QueueStep DrainSafe (view s.conn) (view s'.conn) :=
  h.simulate (fun s => view s.conn) (fun _ hs => asyncInv_reachable hinit hs)
    fun _ _ _ hinv hok hstep => (asyncStep_effect hinv hstep).2.refines.weaken fun _ _ himp => himp hok

end Connio
