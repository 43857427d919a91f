import Connio.QueueInv
import Connio.QueueSpec

/-!
# The queue code refines the abstract queue

For each function that runs under the event lock: which abstract steps it makes, and what becomes of the
events it owns.

* `Conn.held` — the events the conn owns: queued, active, or on the free list;
* `LockEffect P c given c' taken` — **one hold of the event lock**: `c` becomes `c'` by abstract steps
  (all of them safe when `P` holds), the events of `given` come in, those of `taken` go out, and nothing
  is released;
* `eventQueueAbort_effect`, `enqueueEvents_effect`, `connEventsProcessLoop_effect`,
  `connEventsProcessResult_effect`, ... — **PROVED** for each function.
-/

namespace Connio

open Connio.Lib

/-! ### What a conn owns -/

/-- The occupied slots. -/
def Slots.occupied (s : Slots (Option EventId)) : List EventId :=
  s.connect.toList ++ s.receive.toList ++ s.send.toList

theorem Slots.count_set (s : Slots (Option EventId)) (k : ConnEventClass) (v : Option EventId)
    (x : EventId) : (s.set k v).occupied.count x + (s.get k).toList.count x =
      s.occupied.count x + v.toList.count x := by
  cases k <;> simp only [occupied, set, get, List.count_append] <;> omega

theorem Slots.mem_occupied {s : Slots (Option EventId)} {x : EventId} :
    x ∈ s.occupied ↔ ∃ k, s.get k = some x := by
  simp only [occupied, List.mem_append, Option.mem_toList]
  constructor
  · rintro ((h | h) | h)
    · exact ⟨.connect, h⟩
    · exact ⟨.receive, h⟩
    · exact ⟨.send, h⟩
  · rintro ⟨k, h⟩
    cases k
    · exact .inl (.inl h)
    · exact .inl (.inr h)
    · exact .inr h

/-- The events a conn owns. -/
def Conn.held (c : Conn) : List EventId :=
  c.queued ++ c.activeEvent.occupied ++ c.transaction.freeList

/-- Entries that release a resource of an event. -/
def LogEntry.isRelease : LogEntry → Bool
  | .freeCB _ | .iobFree _ | .memFree _ => true
  | _ => false

/-- The entries that release a resource, newest first. -/
def releases (log : List LogEntry) : List LogEntry := log.filter LogEntry.isRelease

theorem releases_append {xs : List LogEntry} (h : ∀ x ∈ xs, x.isRelease = false)
    (log : List LogEntry) : releases (xs ++ log) = releases log := by
  have hnil : xs.filter LogEntry.isRelease = [] := List.filter_eq_nil_iff.mpr fun x hx => by
    rw [h x hx]
    simp
  rw [releases, List.filter_append, hnil]
  rfl

/-- What is read off the releases does not depend on the other entries. -/
theorem filterMap_of_releases {f : LogEntry → Option EventId} {log log' : List LogEntry}
    (hf : ∀ x : LogEntry, x.isRelease = false → f x = none) (h : releases log' = releases log) :
    log'.filterMap f = log.filterMap f := by
  have key : ∀ l : List LogEntry, (releases l).filterMap f = l.filterMap f := by
    intro l
    rw [releases, List.filterMap_filter]
    refine List.filterMap_congr fun x _ => ?_
    cases hx : x.isRelease with
    | true => rfl
    | false => exact (hf x hx).symm
  rw [← key log', ← key log, h]

theorem freed_of_releases {log log' : List LogEntry} (h : releases log' = releases log) :
    freed log' = freed log :=
  filterMap_of_releases (fun x hx => by cases x <;> first | rfl | cases hx) h

theorem clientFreed_of_releases {log log' : List LogEntry} (h : releases log' = releases log) :
    clientFreed log' = clientFreed log :=
  filterMap_of_releases (fun x hx => by cases x <;> first | rfl | cases hx) h

theorem iobFreed_of_releases {log log' : List LogEntry} (h : releases log' = releases log) :
    iobFreed log' = iobFreed log :=
  filterMap_of_releases (fun x hx => by cases x <;> first | rfl | cases hx) h

/-- The type of an event with the two resources that go with it. -/
def ConnEvent.resources (ce : ConnEvent) : ConnEventType × Bool × Bool :=
  (ce.type, ce.bufferStart, ce.ioBuffer)

/-- The client buffer or the send IOBuffer that goes with the type of the event has not been released. -/
structure ConnEvent.Assigned (ce : ConnEvent) : Prop where
  bufferStart : ce.type = .writeFromClientBuffer → ce.bufferStart = true
  ioBuffer : ce.type.eventClass = .send → ce.type ≠ .writeFromClientBuffer → ce.ioBuffer = true

theorem ConnEvent.Assigned.congr {ce ce' : ConnEvent} (h : ce.Assigned)
    (heq : ce'.resources = ce.resources) : ce'.Assigned := by
  simp only [resources, Prod.mk.injEq] at heq
  obtain ⟨ht, hb, hi⟩ := heq
  refine ⟨fun h1 => ?_, fun h1 h2 => ?_⟩
  · rw [hb]
    exact h.bufferStart (ht ▸ h1)
  · rw [hi]
    exact h.ioBuffer (ht ▸ h1) (ht ▸ h2)

/-! ### One hold of the event lock -/

/-- `c` becomes `c'` by abstract steps; when `P` holds they are safe. -/
abbrev Refines (P : Prop) (c c' : Conn) : Prop :=
  ReachableVia QueueStep (fun v ℓ => P → DrainSafe v ℓ) (view c) (view c')

theorem refines_step {P : Prop} {c c' : Conn} {ℓ : QueueLabel} (h : QueueStep (view c) ℓ (view c'))
    (hsafe : P → DrainSafe (view c) ℓ) : Refines P c c' := .single hsafe h

/-- **What becomes of the events a conn owns:** those of `given` come in, those of `taken` go out. -/
structure Owned (c : Conn) (given : List EventId) (c' : Conn) (taken : List EventId) : Prop where
  wf : c'.Wf
  suffix : c.log.IsSuffix c'.log
  ledger : ∀ x, c'.held.count x + taken.count x + (allocated c.log).count x =
    c.held.count x + given.count x + (allocated c'.log).count x
  /-- nothing is released -/
  released : releases c'.log = releases c.log
  resources : ∀ x ∈ allocated c.log, (c'.events x).resources = (c.events x).resources
  status : ∀ x ∈ accepted c.log, (c'.events x).status = (c.events x).status
  error : ∀ x ∈ allocated c.log, (c'.events x).error = (c.events x).error ∨
    (c'.events x).error = Errno.ecanceled
  /-- new events have their resources -/
  assigned : ∀ x ∈ allocated c'.log, x ∉ allocated c.log → (c'.events x).Assigned
  accepts : ∀ x ∈ accepted c'.log, x ∈ accepted c.log ∨ x ∈ given ∨ x ∉ allocated c.log
  socket : ∀ k, c'.sp.event.get k = c.sp.event.get k ∨
    c'.sp.event.get k = (c.sp.event.get k).kill

/-- **One hold of the event lock.** -/
structure LockEffect (P : Prop) (c : Conn) (given : List EventId) (c' : Conn)
    (taken : List EventId) : Prop extends Owned c given c' taken where
  refines : Refines P c c'

/-- What a function leaves alone when no thread enters or leaves and no event is started. -/
structure Steady (c c' : Conn) : Prop where
  active : c'.activeEvent = c.activeEvent
  threads : c'.transaction.threads = c.transaction.threads
  state : c'.state = c.state
  shuttingDown : c'.shuttingDown = c.shuttingDown
  waitForSubmit : c'.waitForSubmit = c.waitForSubmit

theorem Steady.refl (c : Conn) : Steady c c := ⟨rfl, rfl, rfl, rfl, rfl⟩

theorem Steady.trans {c c' c'' : Conn} (h : Steady c c') (h' : Steady c' c'') : Steady c c'' :=
  ⟨h'.active.trans h.active, h'.threads.trans h.threads, h'.state.trans h.state,
    h'.shuttingDown.trans h.shuttingDown, h'.waitForSubmit.trans h.waitForSubmit⟩

namespace Owned

/-- Two changes in a row. -/
theorem trans {c c' c'' : Conn} {g₁ g₂ t₁ t₂ : List EventId} (h : Owned c g₁ c' t₁)
    (h' : Owned c' g₂ c'' t₂) : Owned c (g₁ ++ g₂) c'' (t₁ ++ t₂) := by
  have hsub : ∀ x ∈ allocated c.log, x ∈ allocated c'.log := fun _ => allocated_mono h.suffix
  have hacc : ∀ x ∈ accepted c.log, x ∈ accepted c'.log := fun x hx =>
    (h.suffix.sublist.filterMap _).subset hx
  refine ⟨h'.wf, h.suffix.trans h'.suffix, fun x => ?_, h'.released.trans h.released,
    fun x hx => (h'.resources x (hsub x hx)).trans (h.resources x hx),
    fun x hx => (h'.status x (hacc x hx)).trans (h.status x hx), fun x hx => ?_, fun x hx hn => ?_,
    fun x hx => ?_, fun k => ?_⟩
  · have h1 := h.ledger x
    have h2 := h'.ledger x
    simp only [List.count_append]
    omega
  · rcases h'.error x (hsub x hx) with h2 | h2
    · rw [h2]
      exact h.error x hx
    · exact .inr h2
  · by_cases hx' : x ∈ allocated c'.log
    · exact (h.assigned x hx' hn).congr (h'.resources x hx')
    · exact h'.assigned x hx hx'
  · rcases h'.accepts x hx with hx | hx | hx
    · rcases h.accepts x hx with hx | hx | hx
      · exact .inl hx
      · exact .inr (.inl (List.mem_append_left _ hx))
      · exact .inr (.inr hx)
    · exact .inr (.inl (List.mem_append_right _ hx))
    · exact .inr (.inr fun hc => hx (hsub x hc))
  · rcases h.socket k with h1 | h1 <;> rcases h'.socket k with h2 | h2 <;> rw [h2, h1]
    · exact .inl rfl
    · exact .inr rfl
    · exact .inr rfl
    · exact .inr (SocketEvent.kill_kill _)

/-- Neither events nor socket events change, and nothing is allocated. -/
theorem plain {c c' : Conn} {given taken : List EventId} (wf : c'.Wf)
    (hsuffix : c.log.IsSuffix c'.log)
    (ledger : ∀ x, c'.held.count x + taken.count x = c.held.count x + given.count x)
    (hreleases : releases c'.log = releases c.log) (halloc : allocated c'.log = allocated c.log)
    (haccepted : ∀ x ∈ accepted c'.log, x ∈ accepted c.log ∨ x ∈ given)
    (hevents : c'.events = c.events) (hsocket : c'.sp.event = c.sp.event) :
    Owned c given c' taken := by
  refine ⟨wf, hsuffix, fun x => ?_, hreleases, fun x _ => ?_, fun x _ => ?_, fun x _ => ?_,
    fun x hx hn => ?_, fun x hx => (haccepted x hx).imp_right .inl, fun k => ?_⟩
  · rw [halloc, ledger x]
  · rw [hevents]
  · rw [hevents]
  · rw [hevents]
    exact .inl rfl
  · rw [halloc] at hx
    exact absurd hx hn
  · rw [hsocket]
    exact .inl rfl

theorem of_cancelled {c c' : Conn} (h : c.Wf) (hc : Cancelled c c') : Owned c [] c' [] := by
  have hevent := hc.event
  have hsocket := hc.socket
  obtain ⟨events, event, rfl⟩ := hc.rest
  refine ⟨h, List.suffix_rfl, fun x => rfl, rfl, fun x _ => ?_, fun x _ => ?_, fun x _ => ?_,
    fun x hx hn => absurd hx hn, fun _ hx => .inl hx, hsocket⟩
  · rcases hevent x with hx | hx
    · rw [hx]
    · rw [hx]
      rfl
  · rcases hevent x with hx | hx <;> rw [hx]
  · rcases hevent x with hx | hx <;> rw [hx]
    · exact .inl rfl
    · exact .inr rfl

/-- Events that come in and go out again may be left out on both sides. -/
theorem congr {c c' : Conn} {g t g' t' : List EventId} (h : Owned c g c' t)
    (hcount : ∀ x, g'.count x + t.count x = g.count x + t'.count x)
    (hgiven : ∀ x ∈ g, x ∈ g' ∨ x ∉ allocated c.log ∨ x ∈ accepted c.log) : Owned c g' c' t' := by
  refine ⟨h.wf, h.suffix, fun x => ?_, h.released, h.resources, h.status, h.error, h.assigned,
    fun x hx => ?_, h.socket⟩
  · have h1 := h.ledger x
    have h2 := hcount x
    omega
  · rcases h.accepts x hx with hx | hx | hx
    · exact .inl hx
    · rcases hgiven x hx with hx | hx | hx
      · exact .inr (.inl hx)
      · exact .inr (.inr hx)
      · exact .inl hx
    · exact .inr (.inr hx)

end Owned

namespace LockEffect

variable {P : Prop}

theorem typeOf {c c' : Conn} {given taken : List EventId} (h : LockEffect P c given c' taken) :
    ∀ e ∈ allocated c.log, c'.typeOf e = c.typeOf e := reachable_typeOf h.refines

theorem inv {c c' : Conn} {given taken : List EventId} (h : LockEffect P c given c' taken)
    (hinv : QueueInv (view c)) : QueueInv (view c') := queueInv_reachable hinv h.refines

theorem trans {c c' c'' : Conn} {g₁ g₂ t₁ t₂ : List EventId} (h : LockEffect P c g₁ c' t₁)
    (h' : LockEffect P c' g₂ c'' t₂) : LockEffect P c (g₁ ++ g₂) c'' (t₁ ++ t₂) :=
  ⟨h.toOwned.trans h'.toOwned, h.refines.trans h'.refines⟩

theorem congr {c c' : Conn} {g t g' t' : List EventId} (h : LockEffect P c g c' t)
    (hcount : ∀ x, g'.count x + t.count x = g.count x + t'.count x)
    (hgiven : ∀ x ∈ g, x ∈ g' ∨ x ∉ allocated c.log ∨ x ∈ accepted c.log) :
    LockEffect P c g' c' t' :=
  ⟨h.toOwned.congr hcount hgiven, h.refines⟩

/-- A hold that changes neither events nor socket events and allocates nothing. -/
theorem plain {c c' : Conn} {given taken : List EventId} (refines : Refines P c c') (wf : c'.Wf)
    (ledger : ∀ x, c'.held.count x + taken.count x = c.held.count x + given.count x)
    (hreleases : releases c'.log = releases c.log) (halloc : allocated c'.log = allocated c.log)
    (haccepted : ∀ x ∈ accepted c'.log, x ∈ accepted c.log ∨ x ∈ given)
    (hevents : c'.events = c.events) (hsocket : c'.sp.event = c.sp.event) :
    LockEffect P c given c' taken :=
  ⟨.plain wf (reachable_suffix refines) ledger hreleases halloc haccepted hevents hsocket, refines⟩

theorem refl {c : Conn} (h : c.Wf) : LockEffect P c [] c [] :=
  .plain .init h (fun _ => rfl) rfl rfl (fun _ hx => .inl hx) rfl rfl

/-- Cancelling active events makes no abstract step. -/
theorem of_cancelled {c c' : Conn} (h : c.Wf) (hc : Cancelled c c') : LockEffect P c [] c' [] := by
  refine ⟨.of_cancelled h hc, ?_⟩
  rw [Refines, hc.view]
  exact .init

end LockEffect

theorem Cancelled.steady {c c' : Conn} (h : Cancelled c c') : Steady c c' := by
  obtain ⟨_, _, rfl⟩ := h.rest
  exact ⟨rfl, rfl, rfl, rfl, rfl⟩

/-! ### Aborting -/

section Aborting

variable {P : Prop} {c : Conn}

theorem discards_releases (l : List EventId) (log : List LogEntry) :
    releases (discards l ++ log) = releases log :=
  releases_append (fun x hx => by
    obtain ⟨e, _, rfl⟩ := mem_discards hx
    rfl) log

/-- **`EventQueueAbort` (proved).** -/
theorem eventQueueAbort_effect (hwf : c.Wf) (current : Option EventId) (p : AsyncProblem)
    (hfail : p.status.IsFailure) :
    LockEffect P c [] (eventQueueAbort c current p) [] ∧
      Steady c (eventQueueAbort c current p) := by
  by_cases hp : c.transaction.problem = none
  · obtain ⟨q, hq, hc⟩ := eventQueueAbort_first hwf hp current p
    have hview : view (eventQueueAbort c current p) = (view c).abort p :=
      view_eventQueueAbort hwf hp current p
    obtain ⟨hq', hl⟩ := Conn.Wf.of_represents (c := { c with
        transaction.queue := q
        transaction.freeList := c.queued.reverse ++ c.transaction.freeList
        transaction.problem := some p
        log := discards c.queued ++ (.report p :: c.log) }) hq
    have hmid : LockEffect P c [] { c with
        transaction.queue := q
        transaction.freeList := c.queued.reverse ++ c.transaction.freeList
        transaction.problem := some p
        log := discards c.queued ++ (.report p :: c.log) } [] := by
      refine .plain ?_ hq' (fun x => ?_) ?_ ?_ ?_ rfl rfl
      · rw [Refines, ← hc.view, hview]
        exact .single (a := .abort) (fun _ => trivial) (.abort hp hfail)
      · simp only [Conn.held, hl, List.count_append, List.count_reverse, List.count_nil]
        omega
      · exact (discards_releases _ _).trans rfl
      · exact (discards_log c.queued (.report p :: c.log)).2.2.2.2.1
      · intro x hx
        have hacc := (discards_log c.queued (.report p :: c.log)).2.2.2.1
        exact .inl (hacc ▸ hx)
    have hs := hc.steady
    exact ⟨hmid.trans (.of_cancelled hq' hc),
      ⟨hs.active, hs.threads, hs.state, hs.shuttingDown, hs.waitForSubmit⟩⟩
  · rw [eventQueueAbort_later hp]
    refine ⟨.plain ?_ hwf (fun _ => rfl) rfl rfl (fun _ hx => .inl hx) rfl rfl, ⟨rfl, rfl, rfl, rfl, rfl⟩⟩
    exact refines_step (.again hp hfail) fun _ => trivial

end Aborting

/-! ### Enqueuing -/

section Enqueuing

variable {P : Prop} {c : Conn} {e : EventId}

theorem append_effect (hwf : c.Wf) (hinv : QueueInv (view c))
    (hstate : c.state = .asynchronousClient) (hp : c.transaction.problem = none)
    (halloc : e ∈ allocated c.log) (hfresh : e ∉ accepted c.log) :
    LockEffect P c [e] (eventQueueAppendEvent (c.note (.accept e)) e) [] ∧
      Steady c (eventQueueAppendEvent (c.note (.accept e)) e) := by
  have hq : e ∉ c.queued := fun he => hfresh (hinv.queued_accepted e he)
  obtain ⟨hwf', hl⟩ := Conn.Wf.of_represents (c := eventQueueAppendEvent (c.note (.accept e)) e)
    (DList.represents_append hwf hq)
  refine ⟨⟨⟨hwf', ⟨[.append e, .accept e], rfl⟩, fun x => ?_, rfl, fun x _ => ?_, fun x hx => ?_,
    fun x _ => ?_, fun x hx hn => absurd hx hn, fun x hx => ?_, fun _ => .inl rfl⟩, ?_⟩,
    ⟨rfl, rfl, rfl, rfl, rfl⟩⟩
  rotate_right
  · have hview : view (eventQueueAppendEvent (c.note (.accept e)) e) =
        ({ view c with queued := c.queued ++ [e] }.write (.accept e)).write (.append e) := by
      have ht : (eventQueueAppendEvent (c.note (.accept e)) e).typeOf = c.typeOf :=
        typeOf_setEvent (c := c) (e := e)
          (show ({ c.events e with status := .queued } : ConnEvent).type = _ from rfl)
      simp only [view, hl, ht]
      rfl
    refine refines_step (ℓ := .append e) ?_ fun _ => trivial
    rw [hview]
    exact .append hstate hp halloc hfresh
  · simp only [Conn.held, hl, List.count_append, List.count_nil]
    show _ + _ + c.activeEvent.occupied.count x + c.transaction.freeList.count x + 0 +
      (allocated c.log).count x = _ + (allocated c.log).count x
    omega
  · by_cases hx : x = e <;>
      simp [eventQueueAppendEvent, Conn.setEvent, Conn.note, ConnEvent.resources, hx]
  · have hne : x ≠ e := fun h => hfresh (h ▸ hx)
    simp [eventQueueAppendEvent, Conn.setEvent, Conn.note, hne]
  · left
    by_cases hx : x = e <;> simp [eventQueueAppendEvent, Conn.setEvent, Conn.note, hx]
  · rcases List.mem_cons.mp (show x ∈ e :: accepted c.log from hx) with h | h
    · exact .inr (.inl (List.mem_singleton.mpr h))
    · exact .inl h

/-- **`EventEngineQueueAdd` (proved).**  The step that leaves the queue alone is safe when nothing is
queued. -/
theorem eventEngineQueueAdd_effect (hwf : c.Wf) (hinv : QueueInv (view c))
    (hstate : c.state = .asynchronousClient) (halloc : e ∈ allocated c.log)
    (hfresh : e ∉ accepted c.log)
    (hsafe : P → c.transaction.problem = none → c.shuttingDown = true →
      (c.typeOf e).isShutdown = false → c.queued = []) :
    LockEffect P c [e] (eventEngineQueueAdd (c.note (.accept e)) e) [] ∧
      Steady c (eventEngineQueueAdd (c.note (.accept e)) e) := by
  have hdrop : ∀ (problem : Option AsyncProblem) (log : List LogEntry) (x : EventId),
      (Conn.held { c with
        transaction.problem := problem
        transaction.freeList := e :: c.transaction.freeList
        log := log }).count x = c.held.count x + [e].count x := by
    intro problem log x
    show (c.queued ++ c.activeEvent.occupied ++ e :: c.transaction.freeList).count x = _
    simp only [Conn.held, List.count_append, List.count_cons, List.count_nil]
    omega
  have hacc : ∀ x ∈ e :: accepted c.log, x ∈ accepted c.log ∨ x ∈ [e] := fun x hx =>
    (List.mem_cons.mp hx).symm.imp_right fun h => List.mem_singleton.mpr h
  unfold eventEngineQueueAdd
  split
  next hp =>
    have hp : c.transaction.problem = none := hp
    split
    · exact append_effect hwf hinv hstate hp halloc hfresh
    next hsh =>
    have hsh : c.shuttingDown = true := by simpa [Conn.note] using hsh
    split
    · exact append_effect hwf hinv hstate hp halloc hfresh
    next ht =>
    have ht : (c.typeOf e).isShutdown = false := by simpa [Conn.note, Conn.typeOf] using ht
    simp only [setAsyncProblem, Conn.note, hp]
    refine ⟨.plain ?_ hwf (fun x => hdrop _ _ x) rfl rfl hacc rfl rfl, ⟨rfl, rfl, rfl, rfl, rfl⟩⟩
    exact refines_step (.dropShutdown hstate hp halloc hfresh) fun hP => hsafe hP hp hsh ht
  next hp =>
    refine ⟨.plain ?_ hwf (fun x => hdrop c.transaction.problem _ x) rfl rfl hacc rfl rfl,
      ⟨rfl, rfl, rfl, rfl, rfl⟩⟩
    exact refines_step (.drop hstate hp halloc hfresh) fun _ => trivial

/-- A new event goes to the thread that allocated it. -/
theorem alloc_effect {ce : ConnEvent} (hwf : c.Wf) (hinv : QueueInv (view c))
    (hfresh : e ∉ allocated c.log) (hassigned : ce.Assigned) :
    LockEffect P c [] ((c.setEvent e ce).note (.alloc e)) [e] ∧
      Steady c ((c.setEvent e ce).note (.alloc e)) := by
  have hne : ∀ x ∈ allocated c.log, x ≠ e := by
    rintro x hx rfl
    exact hfresh hx
  have hget : ∀ x, x ≠ e → ((c.setEvent e ce).note (.alloc e)).events x = c.events x :=
    fun x hx => Function.update_of_ne hx _ _
  refine ⟨⟨⟨hwf, List.suffix_cons _ _, fun x => ?_, rfl, fun x hx => ?_, fun x hx => ?_,
    fun x hx => ?_, fun x hx hn => ?_, fun _ hx => .inl hx, fun _ => .inl rfl⟩, ?_⟩,
    ⟨rfl, rfl, rfl, rfl, rfl⟩⟩
  rotate_right
  · have ht : (c.setEvent e ce).typeOf = Function.update c.typeOf e ce.type := by
      funext x
      by_cases hx : x = e <;> simp [Conn.typeOf, Conn.setEvent, hx]
    refine refines_step (ℓ := .alloc e ce.type) ?_ fun _ => trivial
    rw [view_note]
    simp only [view, ht]
    exact .alloc hfresh
  · show c.held.count x + [e].count x + (allocated c.log).count x =
      c.held.count x + 0 + (e :: allocated c.log).count x
    simp only [List.count_cons, List.count_nil]
    omega
  · rw [hget x (hne x hx)]
  · rw [hget x (hne x (hinv.order.accepted_allocated x hx))]
  · rw [hget x (hne x hx)]
    exact .inl rfl
  · have hx' : x = e := by
      rcases List.mem_cons.mp (show x ∈ e :: allocated c.log from hx) with h | h
      · exact h
      · exact absurd h hn
    rw [hx']
    show (Function.update c.events e ce e).Assigned
    rw [Function.update_self]
    exact hassigned

/-- **An event `EventEnqueue` inserts itself (proved),** or the abort when there is no memory for it. -/
theorem insertEvent_effect (newEvent : Option (EventId × ConnEvent)) (hwf : c.Wf)
    (hinv : QueueInv (view c)) (hstate : c.state = .asynchronousClient)
    (hnew : ∀ f ce, newEvent = some (f, ce) →
      f ∉ allocated c.log ∧ ce.Assigned ∧ ce.type.isShutdown = true) (source : CodeSource) :
    LockEffect P c [] (insertEvent c newEvent source) [] ∧
      Steady c (insertEvent c newEvent source) := by
  match newEvent, hnew with
  | none, _ => exact eventQueueAbort_effect hwf none _ (.inr (.inl rfl))
  | some (f, ce), hnew =>
    obtain ⟨hfresh, hassigned, hshutdown⟩ := hnew f ce rfl
    have hnew : ({ ce with inserted := true } : ConnEvent).Assigned :=
      ⟨hassigned.bufferStart, hassigned.ioBuffer⟩
    obtain ⟨h1, hs1⟩ := alloc_effect (P := P) hwf hinv hfresh hnew
    have hnacc : f ∉ accepted c.log := fun h => hfresh (hinv.order.accepted_allocated f h)
    obtain ⟨h2, hs2⟩ := eventEngineQueueAdd_effect (P := P) (e := f) h1.wf (h1.inv hinv)
      (hs1.state.trans hstate) List.mem_cons_self hnacc (by
        intro _ _ _ ht
        have htype : ((c.setEvent f { ce with inserted := true }).note (.alloc f)).typeOf f =
            ce.type := by
          simp [Conn.note, Conn.setEvent, Conn.typeOf]
        rw [htype, hshutdown] at ht
        cases ht)
    refine ⟨(h1.trans h2).congr (by simp) fun x hx => ?_, hs1.trans hs2⟩
    exact .inr (.inl (by simpa using List.mem_singleton.mp hx ▸ hfresh))

/-- Fields that are neither part of the abstract queue nor about events. -/
theorem bufferedSendDataGet_effect (hwf : c.Wf) :
    LockEffect P c [] (bufferedSendDataGet c).2 [] ∧ Steady c (bufferedSendDataGet c).2 ∧
      (bufferedSendDataGet c).2.log = c.log := by
  unfold bufferedSendDataGet
  split
  · exact ⟨.plain .init hwf (fun _ => rfl) rfl rfl (fun _ hx => .inl hx) rfl rfl, ⟨rfl, rfl, rfl, rfl, rfl⟩, rfl⟩
  · exact ⟨.refl hwf, .refl c, rfl⟩

theorem insertFlush_effect (hwf : c.Wf) (hinv : QueueInv (view c))
    (hstate : c.state = .asynchronousClient) {alloc : Option EventId}
    (hnew : ∀ f, alloc = some f → f ∉ allocated c.log) (source : CodeSource) :
    LockEffect P c [] (insertFlush c e alloc source) [] ∧
      Steady c (insertFlush c e alloc source) := by
  unfold insertFlush
  split
  · exact ⟨.refl hwf, .refl c⟩
  · obtain ⟨h1, hs1, hlog⟩ := bufferedSendDataGet_effect (P := P) hwf
    split
    next heq =>
      rw [heq] at h1 hs1
      exact ⟨h1, hs1⟩
    next heq =>
      rw [heq] at h1 hs1 hlog
      obtain ⟨h2, hs2⟩ := insertEvent_effect (P := P)
        (alloc.map fun f => (f, { type := .flush, source := source, ioBuffer := true })) h1.wf
        (h1.inv hinv) (hs1.state.trans hstate) (by
          intro f ce hf
          obtain ⟨f', hf', heq'⟩ := Option.map_eq_some_iff.mp hf
          cases heq'
          refine ⟨hlog ▸ hnew f hf', ⟨fun h => ?_, fun _ _ => rfl⟩, rfl⟩
          cases h) source
      exact ⟨(h1.trans h2).congr (by simp) (by simp), hs1.trans hs2⟩

theorem sslDisconnectEventNeeded_effect (hwf : c.Wf) :
    LockEffect P c [] (sslDisconnectEventNeeded c e).2 [] ∧
      Steady c (sslDisconnectEventNeeded c e).2 ∧
      (sslDisconnectEventNeeded c e).2.log = c.log := by
  unfold sslDisconnectEventNeeded
  split
  · split <;>
      exact ⟨.plain .init hwf (fun _ => rfl) rfl rfl (fun _ hx => .inl hx) rfl rfl, ⟨rfl, rfl, rfl, rfl, rfl⟩, rfl⟩
  all_goals
    exact ⟨.plain .init hwf (fun _ => rfl) rfl rfl (fun _ hx => .inl hx) rfl rfl, ⟨rfl, rfl, rfl, rfl, rfl⟩, rfl⟩

theorem insertSslDisconnect_effect (hwf : c.Wf) (hinv : QueueInv (view c))
    (hstate : c.state = .asynchronousClient) (alloc : Option EventId)
    (hnew : ∀ f, alloc = some f → f ∉ allocated c.log) (source : CodeSource) :
    LockEffect P c [] (insertSslDisconnect c e alloc source) [] ∧
      Steady c (insertSslDisconnect c e alloc source) := by
  unfold insertSslDisconnect
  obtain ⟨h1, hs1, hlog⟩ := sslDisconnectEventNeeded_effect (P := P) (e := e) hwf
  split
  next heq =>
    rw [heq] at h1 hs1
    exact ⟨h1, hs1⟩
  next heq =>
    rw [heq] at h1 hs1 hlog
    obtain ⟨h2, hs2⟩ := insertEvent_effect (P := P)
      (alloc.map fun d => (d, { type := .sslDisconnect, source := source })) h1.wf (h1.inv hinv)
      (hs1.state.trans hstate) (by
        intro f ce hf
        obtain ⟨f', hf', heq'⟩ := Option.map_eq_some_iff.mp hf
        cases heq'
        refine ⟨hlog ▸ hnew f hf', ⟨fun h => ?_, fun h _ => ?_⟩, rfl⟩ <;> cases h) source
    exact ⟨(h1.trans h2).congr (by simp) (by simp), hs1.trans hs2⟩

/-- There is buffered data that must be sent before `e`. -/
def FlushNeeded (c : Conn) (e : EventId) : Prop :=
  c.classOf e ≠ .send ∧ (bufferedSendDataGet c).1 = true

instance (c : Conn) (e : EventId) : Decidable (FlushNeeded c e) :=
  inferInstanceAs (Decidable (_ ∧ _))

/-- **`e` can be enqueued without stranding what is queued:** when it is refused because the handle is
shutting down, nothing is queued.  A flush that is needed in front of `e` is queued, unless there is no
memory for it, which aborts the queue. -/
def EnqueueSafe (c : Conn) (e : EventId) (allocs : Allocs) : Prop :=
  c.transaction.problem = none → c.shuttingDown = true → (c.typeOf e).isShutdown = false →
    (FlushNeeded c e → allocs.flush = none) ∧ (¬ FlushNeeded c e → c.queued = [])

instance (c : Conn) (e : EventId) (allocs : Allocs) : Decidable (EnqueueSafe c e allocs) :=
  inferInstanceAs (Decidable (c.transaction.problem = none → c.shuttingDown = true →
    (c.typeOf e).isShutdown = false →
      (FlushNeeded c e → allocs.flush = none) ∧ (¬ FlushNeeded c e → c.queued = [])))

/-- The allocator hands out fresh memory. -/
structure Allocs.Fresh (allocs : Allocs) (c : Conn) : Prop where
  flush : ∀ f, allocs.flush = some f → f ∉ allocated c.log
  sslDisconnect : ∀ d, allocs.sslDisconnect = some d → d ∉ allocated c.log
  ne : ∀ f, allocs.flush = some f → allocs.sslDisconnect ≠ some f

theorem eventQueueAbort_allocated (hwf : c.Wf) (current : Option EventId) (p : AsyncProblem) :
    allocated (eventQueueAbort c current p).log = allocated c.log := by
  by_cases hp : c.transaction.problem = none
  · have hview := congrArg QueueState.log (view_eventQueueAbort hwf hp current p)
    rw [show (eventQueueAbort c current p).log = _ from hview, abort_log, List.append_assoc]
    exact (discards_log _ _).2.2.2.2.1
  · rw [eventQueueAbort_later hp]
    rfl

theorem eventEngineQueueAdd_allocated (c : Conn) (e : EventId) :
    allocated (eventEngineQueueAdd c e).log = allocated c.log := by
  unfold eventEngineQueueAdd setAsyncProblem
  repeat' split
  all_goals rfl

/-- An inserted flush is the only event that comes in front of one that is not a disconnect. -/
theorem insertFlush_allocated (hwf : c.Wf) (alloc : Option EventId) (source : CodeSource) :
    ∀ x ∈ allocated (insertFlush c e alloc source).log, x ∈ allocated c.log ∨ alloc = some x := by
  intro x hx
  obtain ⟨h1, _, hlog⟩ := bufferedSendDataGet_effect (P := True) hwf
  unfold insertFlush at hx
  split at hx
  · exact .inl hx
  split at hx
  next heq =>
    rw [heq] at hlog
    exact .inl (hlog ▸ hx)
  next heq =>
    rw [heq] at h1 hlog
    cases alloc with
    | none =>
      simp only [Option.map_none, insertEvent] at hx
      rw [eventQueueAbort_allocated h1.wf, hlog] at hx
      exact .inl hx
    | some f =>
      simp only [Option.map_some, insertEvent] at hx
      rw [eventEngineQueueAdd_allocated] at hx
      rcases List.mem_cons.mp (show x ∈ f :: allocated _ from hx) with rfl | hx
      · exact .inr rfl
      · exact .inl (hlog ▸ hx)

theorem bufferedSendDataGet_transaction (c : Conn) :
    (bufferedSendDataGet c).2.transaction = c.transaction := by
  unfold bufferedSendDataGet
  split <;> rfl

theorem eventQueueAbort_problem (hwf : c.Wf) (current : Option EventId) (p : AsyncProblem) :
    (eventQueueAbort c current p).transaction.problem ≠ none := by
  by_cases hp : c.transaction.problem = none
  · have hview := congrArg QueueState.problem (view_eventQueueAbort hwf hp current p)
    rw [show (eventQueueAbort c current p).transaction.problem = _ from hview]
    simp [QueueState.abort, QueueState.record, QueueState.dropQueue, QueueState.write]
  · rw [eventQueueAbort_later hp]
    exact hp

/-- An inserted flush does not remove a problem. -/
theorem insertFlush_problem (hwf : c.Wf) {alloc : Option EventId} {source : CodeSource}
    (hp : (insertFlush c e alloc source).transaction.problem = none) :
    c.transaction.problem = none := by
  have hsame := bufferedSendDataGet_transaction c
  obtain ⟨h1, _⟩ := bufferedSendDataGet_effect (P := True) hwf
  unfold insertFlush at hp
  split at hp
  · exact hp
  split at hp
  next heq =>
    rw [heq] at hsame
    exact hsame ▸ hp
  next heq =>
    rw [heq] at h1 hsame
    cases alloc with
    | none => exact absurd hp (eventQueueAbort_problem h1.wf _ _)
    | some f =>
      simp only [Option.map_some, insertEvent] at hp
      unfold eventEngineQueueAdd at hp
      split at hp
      next hnone =>
        rw [← hsame]
        exact hnone
      · rw [← hsame]
        exact hp

/-- Without a flush to insert nothing changes. -/
theorem insertFlush_of_not (h : ¬ FlushNeeded c e) (alloc : Option EventId) (source : CodeSource) :
    (insertFlush c e alloc source).transaction = c.transaction := by
  have hsame := bufferedSendDataGet_transaction c
  unfold insertFlush
  split
  · rfl
  next hclass =>
    split
    next heq =>
      rw [heq] at hsame
      exact hsame
    next heq => exact absurd ⟨hclass, by rw [heq]⟩ h

/-- There is no memory for a flush that is needed. -/
theorem insertFlush_none (hwf : c.Wf) (h : FlushNeeded c e) (source : CodeSource) :
    (insertFlush c e none source).transaction.problem ≠ none := by
  obtain ⟨h1, _⟩ := bufferedSendDataGet_effect (P := True) hwf
  obtain ⟨hclass, hdata⟩ := h
  unfold insertFlush
  rw [if_neg hclass]
  split
  next heq =>
    rw [heq] at hdata
    cases hdata
  next heq =>
    rw [heq] at h1
    exact eventQueueAbort_problem h1.wf _ _

/-- Only a disconnect gets an SSL disconnect in front of it. -/
theorem insertSslDisconnect_of_ne (h : c.typeOf e ≠ .disconnect) (alloc : Option EventId)
    (source : CodeSource) :
    (insertSslDisconnect c e alloc source).queued = c.queued ∧
      (insertSslDisconnect c e alloc source).transaction.problem = c.transaction.problem ∧
      (insertSslDisconnect c e alloc source).shuttingDown = c.shuttingDown ∧
      (insertSslDisconnect c e alloc source).events = c.events := by
  unfold insertSslDisconnect sslDisconnectEventNeeded
  split
  next heq =>
    split at heq
    next ht => exact absurd ht h
    all_goals
      cases heq
      exact ⟨rfl, rfl, rfl, rfl⟩
  next heq =>
    split at heq
    next ht => exact absurd ht h
    all_goals cases heq

theorem asyncClientEnter_frame (c : Conn) :
    (asyncClientEnter c).transaction.problem = c.transaction.problem ∧
      (asyncClientEnter c).shuttingDown = c.shuttingDown ∧
      (asyncClientEnter c).events = c.events ∧ (asyncClientEnter c).queued = c.queued ∧
      (asyncClientEnter c).sendBuffer = c.sendBuffer := by
  unfold asyncClientEnter connChangeState asyncQueueStatusInit
  split
  · split <;> exact ⟨rfl, rfl, rfl, rfl, rfl⟩
  · exact ⟨rfl, rfl, rfl, rfl, rfl⟩

theorem FlushNeeded.asyncClientEnter_iff :
    FlushNeeded (asyncClientEnter c) e ↔ FlushNeeded c e := by
  obtain ⟨_, _, hev, _, hb⟩ := asyncClientEnter_frame c
  have hbuf : (bufferedSendDataGet (Connio.asyncClientEnter c)).1 = (bufferedSendDataGet c).1 := by
    unfold bufferedSendDataGet
    rw [hb]
    split <;> rfl
  unfold FlushNeeded
  rw [hbuf, Conn.classOf, Conn.typeOf, hev]
  rfl

theorem EnqueueSafe.asyncClientEnter_iff {allocs : Allocs} :
    EnqueueSafe (asyncClientEnter c) e allocs ↔ EnqueueSafe c e allocs := by
  obtain ⟨hp, hsh, hev, hq, _⟩ := asyncClientEnter_frame c
  unfold EnqueueSafe
  rw [hp, hsh, hq, FlushNeeded.asyncClientEnter_iff, Conn.typeOf, hev]
  rfl

/-- **The part of `EventEnqueue` that queues events (proved).** -/
theorem enqueueEvents_effect (hwf : c.Wf) (hinv : QueueInv (view c))
    (hstate : c.state = .asynchronousClient) (halloc : e ∈ allocated c.log)
    (hfresh : e ∉ accepted c.log) {allocs : Allocs} (hnew : allocs.Fresh c) (source : CodeSource)
    (hsafe : P → EnqueueSafe c e allocs) :
    LockEffect P c [e] (enqueueEvents c e allocs source) [] ∧
      Steady c (enqueueEvents c e allocs source) := by
  obtain ⟨h1, hs1⟩ := insertFlush_effect (P := P) (e := e) hwf hinv hstate hnew.flush source
  have hinv1 := h1.inv hinv
  obtain ⟨h2, hs2⟩ := insertSslDisconnect_effect (P := P) (e := e) h1.wf hinv1
    (hs1.state.trans hstate) allocs.sslDisconnect (by
      intro d hd hmem
      rcases insertFlush_allocated hwf allocs.flush source d hmem with h | h
      · exact hnew.sslDisconnect d hd h
      · exact hnew.ne d h hd) source
  have h12 : LockEffect P c [] (insertSslDisconnect (insertFlush c e allocs.flush source) e
      allocs.sslDisconnect source) [] := (h1.trans h2).congr (by simp) (by simp)
  have hs12 := hs1.trans hs2
  obtain ⟨h3, hs3⟩ := eventEngineQueueAdd_effect (P := P) (e := e) h12.wf (h12.inv hinv)
    (hs12.state.trans hstate) (allocated_mono h12.suffix halloc)
    (fun hacc => by
      rcases h12.accepts e hacc with h | h | h
      · exact hfresh h
      · cases h
      · exact h halloc)
    (fun hP hp hsh ht => by
      rw [h12.typeOf e halloc] at ht
      have hne : c.typeOf e ≠ .disconnect := by
        intro h
        rw [h] at ht
        cases ht
      have hne1 : (insertFlush c e allocs.flush source).typeOf e ≠ .disconnect := by
        rw [h1.typeOf e halloc]
        exact hne
      obtain ⟨hq2, hp2, _⟩ := insertSslDisconnect_of_ne hne1 allocs.sslDisconnect source
      rw [hq2]
      rw [hp2] at hp
      obtain ⟨hflush, hq⟩ := hsafe hP (insertFlush_problem hwf hp) (hs12.shuttingDown ▸ hsh) ht
      by_cases hneeded : FlushNeeded c e
      · rw [hflush hneeded] at hp
        exact absurd hp (insertFlush_none hwf hneeded source)
      · rw [Conn.queued, insertFlush_of_not hneeded]
        exact hq hneeded)
  exact ⟨(h12.trans h3).congr (by simp) (by simp), hs12.trans hs3⟩

/-- The conn enters client mode. -/
theorem asyncClientEnter_effect (hwf : c.Wf) (hstate : queueingPermitted c = true) :
    LockEffect P c [] (asyncClientEnter c) [] ∧ (asyncClientEnter c).state = .asynchronousClient ∧
      (asyncClientEnter c).activeEvent = c.activeEvent ∧
      (asyncClientEnter c).transaction.threads = c.transaction.threads ∧
      (asyncClientEnter c).log = c.log := by
  have hcases : c.state = .idle ∨ c.state = .asynchronousClient := by
    unfold queueingPermitted at hstate
    split at hstate <;> simp_all
  unfold asyncClientEnter
  split
  next hne =>
    have hidle : c.state = .idle := hcases.resolve_right hne
    unfold asyncQueueStatusInit connChangeState
    split <;>
      exact ⟨.plain (refines_step (.enterClient hidle) fun _ => trivial) hwf (fun _ => rfl) rfl rfl
        (fun _ hx => .inl hx) rfl rfl, rfl, rfl, rfl, rfl⟩
  next heq =>
    have heq : c.state = .asynchronousClient := by simpa using heq
    exact ⟨.refl hwf, heq, rfl, rfl, rfl⟩

theorem writeClientData_effect (hwf : c.Wf) (async : Bool) (used : Option ℕ) :
    LockEffect P c [] (writeClientData c async used) [] ∧
      (writeClientData c async used).activeEvent = c.activeEvent ∧
      (writeClientData c async used).transaction.threads = c.transaction.threads ∧
      ((writeClientData c async used).state = .asynchronousEngineComplete ↔
        c.state = .asynchronousEngineComplete) := by
  unfold writeClientData
  split
  next h =>
    refine ⟨.plain (refines_step (.enterClient h.2) fun _ => trivial) hwf (fun _ => rfl) rfl rfl
      (fun _ hx => .inl hx) rfl rfl, rfl, rfl, ?_⟩
    simp [connChangeState, h.2]
  · exact ⟨.plain .init hwf (fun _ => rfl) rfl rfl (fun _ hx => .inl hx) rfl rfl, rfl, rfl, .rfl⟩

end Enqueuing

/-! ### Processing -/

namespace Outcome

/-- The free list a thread takes with it. -/
def freeList : Outcome → List EventId
  | .work _ freeList => freeList
  | .leave _ => []

/-- The event a thread works on. -/
def events : Outcome → List EventId
  | .work e _ => [e]
  | .leave _ => []

/-- The threads that stay inside `ConnEventsProcess`. -/
def threads : Outcome → ℕ
  | .work _ _ => 1
  | .leave _ => 0

end Outcome

/-- **A thread holds the event lock inside `ConnEventsProcess`** and gives it back with the outcome
`r.1`. -/
structure ProcessEffect (P : Prop) (c : Conn) (connEvent : Option EventId) (r : Outcome × Conn) :
    Prop where
  effect : LockEffect P c [] r.2 r.1.freeList
  threads : r.2.transaction.threads + 1 = c.transaction.threads + r.1.threads
  active : ∀ x, r.2.activeEvent.occupied.count x + connEvent.toList.count x =
    c.activeEvent.occupied.count x + r.1.events.count x
  complete : r.2.state = .asynchronousEngineComplete ↔ r.1 = .leave false

section Processing

variable {P : Prop} {c : Conn}

/-- A thread leaves, because nothing can be started. -/
theorem connEventsProcessLeave_effect (hwf : c.Wf) (hthreads : 0 < c.transaction.threads)
    (hstate : c.state = .asynchronousClient ∨ c.state = .asynchronousEngine)
    (hstuck : c.transaction.problem ≠ none ∨ c.queued = [] ∨
      ¬ ∀ k, c.activeEvent.get k = none) :
    ProcessEffect P c none
      (.leave (connEventsProcessLeave c).1, (connEventsProcessLeave c).2) := by
  have hne : c.state ≠ .asynchronousEngineComplete := by
    rcases hstate with h | h <;> rw [h] <;> simp
  have hsub : c.transaction.threads - 1 + 1 = c.transaction.threads := by omega
  unfold connEventsProcessLeave
  by_cases hq : c.transaction.queue.head.isSome
  · -- queued events remain
    have hq' : c.queued ≠ [] := by
      intro h
      rw [hwf.head_eq, h] at hq
      cases hq
    simp only [hq, if_true]
    refine ⟨.plain ?_ hwf (fun _ => rfl) rfl rfl (fun _ hx => .inl hx) rfl rfl, hsub, fun _ => rfl,
      by simp [hne]⟩
    exact refines_step (.exit hthreads hstate hstuck (.inl hq')) fun _ => trivial
  have hq' : c.queued = [] := by
    have hhead := hwf.head_eq
    rw [Option.not_isSome_iff_eq_none.mp hq] at hhead
    exact List.head?_eq_none_iff.mp hhead.symm
  by_cases hin : connEventsInProgress c = true
  · -- events in progress
    have hactive : ¬ ∀ k, c.activeEvent.get k = none := by
      intro h
      rw [connEventsInProgress_eq_false.mpr ⟨h .connect, h .receive, h .send⟩] at hin
      cases hin
    have hin' : connEventsInProgress
        { c with transaction.threads := c.transaction.threads - 1 } = true := hin
    simp only [hq, hin', if_true, Bool.false_eq_true, if_false]
    refine ⟨.plain ?_ hwf (fun _ => rfl) rfl rfl (fun _ hx => .inl hx) rfl rfl, hsub, fun _ => rfl,
      by simp [hne]⟩
    exact refines_step (.exit hthreads hstate hstuck (.inr hactive)) fun _ => trivial
  have hf : connEventsInProgress c = false := by simpa using hin
  have hfree : ∀ k, c.activeEvent.get k = none := by
    obtain ⟨h1, h2, h3⟩ := connEventsInProgress_eq_false.mp hf
    intro k
    cases k
    · exact h1
    · exact h2
    · exact h3
  have hin' : connEventsInProgress
      { c with transaction.threads := c.transaction.threads - 1 } = false := hf
  simp only [hq, hin', Bool.false_eq_true, if_false]
  by_cases hclient : c.state = .asynchronousClient
  · -- waiting for submit
    simp only [Conn.note, hclient, if_true]
    refine ⟨.plain ?_ hwf (fun _ => rfl) rfl rfl (fun _ hx => .inl hx) rfl rfl, hsub, fun _ => rfl,
      by simp⟩
    have hstep := QueueStep.exitEmpty (v := view c) hthreads hstate hq' hfree (.inl hclient)
    rw [show (view c).state = .asynchronousClient from hclient] at hstep
    exact refines_step hstep fun _ => trivial
  have hengine : c.state = .asynchronousEngine := hstate.resolve_left hclient
  by_cases hothers : c.transaction.threads - 1 > 0
  · -- other threads
    simp only [Conn.note, hengine, reduceCtorEq, if_false, hothers, if_true]
    refine ⟨.plain ?_ hwf (fun _ => rfl) rfl rfl (fun _ hx => .inl hx) rfl rfl, hsub, fun _ => rfl,
      by simp⟩
    have hlt : 1 < c.transaction.threads := by omega
    have hstep := QueueStep.exitEmpty (v := view c) hthreads hstate hq' hfree (.inr hlt)
    rw [show (view c).state = .asynchronousEngine from hengine] at hstep
    exact refines_step hstep fun _ => trivial
  · -- this is the last thread out
    simp only [Conn.note, hengine, reduceCtorEq, if_false, hothers]
    have hone : c.transaction.threads = 1 := by omega
    refine ⟨.plain ?_ hwf (fun _ => rfl) rfl rfl (fun _ hx => .inl hx) rfl rfl, hsub, fun _ => rfl,
      by simp [connChangeState]⟩
    have hstep := QueueStep.exitDone (v := view c) hone hengine hq' hfree
    have hzero : c.transaction.threads - 1 = 0 := by omega
    refine refines_step (ℓ := .exitDone) ?_ fun _ => trivial
    simp only [view, connChangeState, hzero]
    exact hstep

/-- The thread takes the whole free list with it. -/
theorem grab_effect (hwf : c.Wf) :
    LockEffect P c [] (connEventFreeListGrab c).2 (connEventFreeListGrab c).1 := by
  refine .plain .init hwf (fun x => ?_) rfl rfl (fun _ hx => .inl hx) rfl rfl
  show (c.queued ++ c.activeEvent.occupied ++ []).count x + c.transaction.freeList.count x =
    (c.queued ++ c.activeEvent.occupied ++ c.transaction.freeList).count x + 0
  simp only [List.count_append, List.count_nil]
  omega

/-- **The head of the loop (proved).** -/
theorem connEventsProcessLoop_effect (hwf : c.Wf) (hthreads : 0 < c.transaction.threads)
    (hstate : c.state = .asynchronousClient ∨ c.state = .asynchronousEngine)
    (connEvent : Option EventId) :
    ProcessEffect P c connEvent (connEventsProcessLoop c connEvent) := by
  have hne : c.state ≠ .asynchronousEngineComplete := by
    rcases hstate with h | h <;> rw [h] <;> simp
  cases connEvent with
  | some e =>
    refine ⟨grab_effect hwf, rfl, fun _ => rfl, ?_⟩
    simp only [connEventsProcessLoop, connEventFreeListGrab, hne, reduceCtorEq]
  | none =>
    cases hn : connEventNext c with
    | mk next c₁ =>
    cases next with
    | some e =>
      obtain ⟨a, b, q, hl, hq, rfl, hp, hconn, hfree, hskip, halone⟩ := connEventNext_some hwf hn
      have hstart : LockEffect P c []
          ((connEventInProgressSet { c with transaction.queue := q } e).note (.start e)) [] := by
        obtain ⟨hwf', hl'⟩ := Conn.Wf.of_represents
          (c := (connEventInProgressSet { c with transaction.queue := q } e).note (.start e)) hq
        refine .plain ?_ hwf' (fun x => ?_) rfl rfl (fun _ hx => .inl hx) rfl rfl
        · refine refines_step (ℓ := .start e) ?_ fun _ => trivial
          have hstep := QueueStep.start (v := view c) hl
            ⟨hp, hstate, hthreads, hconn, hfree, hskip, halone⟩
          simp only [view, hl']
          exact hstep
        · have hset := Slots.count_set c.activeEvent (c.classOf e) (some e) x
          rw [hfree] at hset
          show ((connEventInProgressSet { c with transaction.queue := q } e).note
            (.start e)).held.count x + 0 = c.held.count x + 0
          simp only [Conn.held, hl', hl, List.count_append, List.count_cons]
          show _ + _ + (c.activeEvent.set (c.classOf e) (some e)).occupied.count x +
            c.transaction.freeList.count x + 0 = _
          simp only [Option.toList_none, Option.toList_some, List.count_cons, List.count_nil]
            at hset
          omega
      have hloop : connEventsProcessLoop c none =
          (.work e (connEventFreeListGrab ((connEventInProgressSet
            { c with transaction.queue := q } e).note (.start e))).1,
            (connEventFreeListGrab ((connEventInProgressSet
              { c with transaction.queue := q } e).note (.start e))).2) := by
        simp only [connEventsProcessLoop, hn]
      rw [hloop]
      refine ⟨hstart.trans (grab_effect hstart.wf), rfl, fun x => ?_, ?_⟩
      · have hset := Slots.count_set c.activeEvent (c.classOf e) (some e) x
        rw [hfree] at hset
        exact hset
      · exact iff_of_false hne (by simp)
    | none =>
      obtain ⟨rfl, hstuck⟩ := connEventNext_none hwf hn
      have hloop : connEventsProcessLoop c₁ none =
          (.leave (connEventsProcessLeave c₁).1, (connEventsProcessLeave c₁).2) := by
        simp only [connEventsProcessLoop, hn]
      rw [hloop]
      exact connEventsProcessLeave_effect hwf hthreads hstate hstuck

/-- A thread enters. -/
theorem enter_effect (hwf : c.Wf)
    (hstate : c.state = .asynchronousClient ∨ c.state = .asynchronousEngine) :
    LockEffect P c [] ({ c with transaction.threads := c.transaction.threads + 1 }.note .enter) [] :=
  .plain (refines_step (.enter hstate) fun _ => trivial) hwf (fun _ => rfl) rfl rfl
    (fun _ hx => .inl hx) rfl rfl

/-- A thread enters `ConnEventsProcess` and gives the event lock back with the outcome `r.1`. -/
structure EnterEffect (P : Prop) (c : Conn) (given : List EventId) (connEvent : Option EventId)
    (r : Outcome × Conn) : Prop where
  effect : LockEffect P c given r.2 r.1.freeList
  threads : r.2.transaction.threads = c.transaction.threads + r.1.threads
  active : ∀ x, r.2.activeEvent.occupied.count x + connEvent.toList.count x =
    c.activeEvent.occupied.count x + r.1.events.count x
  complete : r.2.state = .asynchronousEngineComplete ↔ r.1 = .leave false

/-- **`ConnEventsProcess` up to its first release of the event lock (proved).** -/
theorem connEventsProcess_effect (hwf : c.Wf)
    (hstate : c.state = .asynchronousClient ∨ c.state = .asynchronousEngine)
    (connEvent : Option EventId) :
    EnterEffect P c [] connEvent (connEventsProcess c connEvent) := by
  have h1 := enter_effect (P := P) hwf hstate
  have h2 := connEventsProcessLoop_effect (P := P) h1.wf (Nat.succ_pos _) hstate connEvent
  refine ⟨h1.trans h2.effect, ?_, h2.active, h2.complete⟩
  exact Nat.add_right_cancel (h2.threads.trans (Nat.add_right_comm _ _ _))

theorem freeListAdd_effect (hwf : c.Wf) (e : EventId) :
    LockEffect P c [e] (connEventFreeListAdd c e) [] := by
  refine .plain .init hwf (fun x => ?_) rfl rfl (fun _ hx => .inl hx) rfl rfl
  show (c.queued ++ c.activeEvent.occupied ++ e :: c.transaction.freeList).count x + 0 =
    (c.queued ++ c.activeEvent.occupied ++ c.transaction.freeList).count x + [e].count x
  simp only [List.count_append, List.count_cons, List.count_nil]
  omega

/-! ### Finishing an event -/

/-- The event leaves its slot. -/
theorem vacate_owned {e : EventId} (hwf : c.Wf) (hslot : c.activeEvent.get (c.classOf e) = some e)
    (st : ConnEventStatus) (err : Errno) (src : CodeSource) :
    Owned c [] ((connEventInProgressClear c e).note (.leave e st err src)) [e] := by
  refine .plain hwf (List.suffix_cons _ _) (fun x => ?_) rfl rfl (fun _ hx => .inl hx) rfl rfl
  have hset := Slots.count_set c.activeEvent (c.classOf e) none x
  rw [hslot] at hset
  simp only [Option.toList_none, Option.toList_some, List.count_nil] at hset
  show (c.queued ++ (c.activeEvent.set (c.classOf e) none).occupied ++
    c.transaction.freeList).count x + [e].count x =
    (c.queued ++ c.activeEvent.occupied ++ c.transaction.freeList).count x + 0
  simp only [List.count_append]
  omega

theorem captureStats_frame (c : Conn) (e : EventId) :
    view (captureStats c e) = view c ∧ Steady c (captureStats c e) ∧
      (captureStats c e).events = c.events ∧
      (captureStats c e).transaction.problem = c.transaction.problem ∧
      (c.Wf → Owned c [] (captureStats c e) []) := by
  unfold captureStats
  split <;>
    exact ⟨rfl, ⟨rfl, rfl, rfl, rfl, rfl⟩, rfl, rfl, fun hwf =>
      .plain hwf List.suffix_rfl (fun _ => rfl) rfl rfl (fun _ hx => .inl hx) rfl rfl⟩

theorem cancelEvent_eq (c : Conn) (e : EventId) :
    ∃ sp : SOCK, sp.event = c.sp.event ∧ cancelEvent c e = { c with
      events := Function.update c.events e { c.events e with error := Errno.ecanceled }
      sp := sp
      log := .cancel e :: c.log } := by
  refine ⟨(cancelEvent c e).sp, ?_, ?_⟩ <;> simp only [cancelEvent] <;> split <;> rfl

theorem cancelEvent_frame (c : Conn) (e : EventId) :
    view (cancelEvent c e) = (view c).write (.cancel e) ∧ Steady c (cancelEvent c e) ∧
      (cancelEvent c e).transaction = c.transaction ∧ (c.Wf → Owned c [] (cancelEvent c e) []) := by
  obtain ⟨sp, hsp, heq⟩ := cancelEvent_eq c e
  have hevents : ∀ x, (cancelEvent c e).events x = c.events x ∨
      (cancelEvent c e).events x = { c.events x with error := Errno.ecanceled } := by
    intro x
    rw [heq]
    by_cases hx : x = e
    · exact .inr (by simp [hx])
    · exact .inl (Function.update_of_ne hx _ _)
  have htype : (cancelEvent c e).typeOf = c.typeOf := by
    funext x
    show ((cancelEvent c e).events x).type = (c.events x).type
    rcases hevents x with h | h <;> rw [h]
  rw [heq] at hevents htype ⊢
  refine ⟨?_, ⟨rfl, rfl, rfl, rfl, rfl⟩, rfl, fun hwf => ?_⟩
  · simp only [view, htype]
    rfl
  · refine ⟨hwf, List.suffix_cons _ _, fun x => rfl, rfl, fun x _ => ?_, fun x _ => ?_,
      fun x _ => ?_, fun x hx hn => absurd hx hn, fun x hx => .inl hx, fun k => ?_⟩
    · rcases hevents x with h | h
      · rw [h]
      · rw [h]
        rfl
    · rcases hevents x with h | h <;> rw [h]
    · rcases hevents x with h | h <;> rw [h]
      · exact .inl rfl
      · exact .inr rfl
    · left
      rw [hsp]

/-- **The result of an event (proved).**  Recording a partial result is safe when nothing is queued. -/
theorem connEventsProcessResult_effect {e : EventId} (hwf : c.Wf) (hinv : QueueInv (view c))
    (hslot : c.activeEvent.get (c.classOf e) = some e) (hthreads : 0 < c.transaction.threads)
    (hfinal : (c.events e).status ≠ .queued ∧ (c.events e).status ≠ .inProgress)
    (hsafe : P → (c.events e).status = .partialResult → c.transaction.problem = none →
      c.queued = []) :
    LockEffect P c [] (connEventsProcessResult c e) [] ∧
      (connEventsProcessResult c e).activeEvent = c.activeEvent.set (c.classOf e) none ∧
      (connEventsProcessResult c e).transaction.threads = c.transaction.threads ∧
      (connEventsProcessResult c e).state = c.state := by
  have hv := vacate_owned hwf hslot (c.events e).status (c.events e).error (c.events e).source
  obtain ⟨hview, hs, hev, hpr, hcap⟩ := captureStats_frame ((connEventInProgressClear c e).note
    (.leave e (c.events e).status (c.events e).error (c.events e).source)) e
  have hcap := hcap hv.wf
  -- the conn after the event has left its slot
  obtain ⟨c₂, hc₂⟩ : ∃ c₂, c₂ = captureStats ((connEventInProgressClear c e).note
    (.leave e (c.events e).status (c.events e).error (c.events e).source)) e := ⟨_, rfl⟩
  have hresult : connEventsProcessResult c e = connEventFreeListAdd (handleErrors c₂ e) e := by
    rw [hc₂]
    rfl
  rw [← hc₂] at hview hs hev hpr hcap
  have hown : Owned c [] c₂ [e] := hv.trans hcap
  have hview : view c₂ = (view c).vacate e (c.events e).status (c.events e).error
      (c.events e).source := hview
  have hpr : c₂.transaction.problem = c.transaction.problem := hpr
  have hce : c₂.events e = c.events e := by rw [hev]; rfl
  have fin : Finishing (view c) e (c.events e).status := ⟨hslot, hthreads, hfinal⟩
  have hwf₂ : c₂.Wf := hown.wf
  suffices h : Owned c₂ [] (handleErrors c₂ e) [] ∧ Refines P c (handleErrors c₂ e) ∧
      Steady c₂ (handleErrors c₂ e) by
    obtain ⟨h1, h2, h3⟩ := h
    have hadd := freeListAdd_effect (P := P) h1.wf e
    have heffect : LockEffect P c [] (connEventFreeListAdd (handleErrors c₂ e) e) [] :=
      ⟨((hown.trans h1).trans hadd.toOwned).congr (by simp) (by
        intro x hx
        have hxe : x = e := by simpa using hx
        exact .inr (.inr (hxe ▸ hinv.active_accepted _ e hslot))), h2.trans hadd.refines⟩
    rw [hresult]
    have hst := hs.trans h3
    exact ⟨heffect, hst.active, hst.threads, hst.state⟩
  have hd : P → DrainSafe (view c) (.finish e (c.events e).status) := by
    intro hP
    have hsafe := hsafe hP
    cases hst : (c.events e).status with
    | partialResult => exact hsafe hst
    | _ => exact trivial
  have hstep : ∀ {c₃ : Conn} {v : QueueState}, view c₃ = v →
      QueueStep (view c) (.finish e (c.events e).status) v → Refines P c c₃ := by
    rintro c₃ v rfl h
    exact refines_step h hd
  unfold handleErrors
  rw [hce]
  simp only []
  split
  next hp =>
    -- another event had a problem
    have hne : (view c).problem ≠ none := by
      intro h
      rw [hpr, show c.transaction.problem = none from h] at hp
      cases hp
    obtain ⟨hv, hs', _, ho⟩ := cancelEvent_frame c₂ e
    exact ⟨ho hwf₂, hstep (hv.trans (by rw [hview])) (.finishCancelled fin hne), hs'⟩
  next hp =>
  have hp₂ : c₂.transaction.problem = none := by simpa using hp
  have hpc : (view c).problem = none := hpr.symm.trans hp₂
  split
  next hfailed =>
    -- this event had a problem
    have hf : (c.events e).status.IsFailure := hfailed
    obtain ⟨ha, hs'⟩ := eventQueueAbort_effect (P := P) hwf₂ (some e)
      ⟨(c.events e).status, (c.events e).error, (c.events e).source⟩ hf
    refine ⟨ha.toOwned, hstep (view_eventQueueAbort hwf₂ hp₂ _ _) ?_, hs'⟩
    rw [hview]
    exact .finishFailed fin hpc hf
  next hfailed =>
  split
  next hpart =>
    simp only [setAsyncProblem, hp₂]
    refine ⟨.plain hwf₂ (List.suffix_cons _ _) (fun _ => rfl) rfl rfl (fun _ hx => .inl hx) rfl rfl,
      ?_, ⟨rfl, rfl, rfl, rfl, rfl⟩⟩
    rw [hpart] at fin hview
    have hrec : QueueStep (view c) (.finish e .partialResult) (((view c).vacate e .partialResult
        (c.events e).error (c.events e).source).record
          ⟨.partialResult, (c.events e).error, (c.events e).source⟩) := .finishPartial fin hpc
    rw [← hview, ← hpart] at hrec
    exact hstep rfl hrec
  next hpart =>
  have hcomplete : (c.events e).status = .complete := by
    obtain ⟨h1, h2⟩ := hfinal
    cases hst : (c.events e).status <;> simp_all
  rw [hcomplete] at fin hview
  split
  next hsh =>
    -- the handle is trying to shut down
    obtain ⟨hv, hs', htr, ho⟩ := cancelEvent_frame c₂ e
    have hwf₃ := (ho hwf₂).wf
    have hp₃ : (cancelEvent c₂ e).transaction.problem = none := by rw [htr, hp₂]
    obtain ⟨ha, hs''⟩ := eventQueueAbort_effect (P := P) hwf₃ (some e)
      ⟨.killed, Errno.eshutdown, (c.events e).source⟩ (.inr (.inr rfl))
    refine ⟨(ho hwf₂).trans ha.toOwned, hstep (view_eventQueueAbort hwf₃ hp₃ _ _) ?_,
      hs'.trans hs''⟩
    rw [hv, hview, hcomplete]
    exact .finishShutdown fin hpc
  next hsh =>
    refine ⟨.plain hwf₂ List.suffix_rfl (fun _ => rfl) rfl rfl (fun _ hx => .inl hx) rfl rfl,
      hstep hview ?_, .refl c₂⟩
    rw [hcomplete]
    exact .finishComplete fin hpc

/-- **The event lock is taken again after `ConnEventProcess` (proved).** -/
theorem connEventsProcessRelock_effect {e : EventId} {st : ConnEventStatus} (hwf : c.Wf)
    (hinv : QueueInv (view c)) (hslot : c.activeEvent.get (c.classOf e) = some e)
    (hthreads : 0 < c.transaction.threads) (hst : (c.events e).status = st)
    (hfinal : st ≠ .queued ∧ st ≠ .inProgress)
    (hsafe : P → st = .partialResult → c.transaction.problem = none → c.queued = []) :
    ProcessEffect P c (some e) (connEventsProcessRelock c e st) := by
  subst hst
  obtain ⟨h1, hact, hth, hstate⟩ :=
    connEventsProcessResult_effect hwf hinv hslot hthreads hfinal hsafe
  have hbusy := hinv.state.busy_of_threads hthreads
  have h2 := connEventsProcessLoop_effect (P := P) h1.wf (hth.symm ▸ hthreads)
    (by rw [hstate]; exact hbusy) none
  have hrelock : connEventsProcessRelock c e (c.events e).status =
      connEventsProcessLoop (connEventsProcessResult c e) none := by
    rw [connEventsProcessRelock, if_neg hfinal.2]
  rw [hrelock]
  refine ⟨h1.trans h2.effect, h2.threads.trans (by rw [hth]), fun x => ?_, h2.complete⟩
  have hset := Slots.count_set c.activeEvent (c.classOf e) none x
  have hactive := h2.active x
  rw [hslot] at hset
  rw [hact] at hactive
  simp only [Option.toList_none, Option.toList_some, List.count_nil] at hset hactive ⊢
  omega

end Processing

/-! ### The consumer's calls -/

section Calls

variable {P : Prop} {c : Conn}

/-- **`EventEnqueue` (proved).** -/
theorem eventEnqueue_effect (hwf : c.Wf) (hinv : QueueInv (view c)) {connEvent : Option EventId}
    (halloc : ∀ e, connEvent = some e → e ∈ allocated c.log ∧ e ∉ accepted c.log)
    {allocs : Allocs} (hnew : allocs.Fresh c) {source : CodeSource} {r : Outcome × Conn}
    (h : eventEnqueue c connEvent allocs source = some r)
    (hsafe : P → ∀ e, connEvent = some e → queueingPermitted c = true → EnqueueSafe c e allocs) :
    EnterEffect P c connEvent.toList none r := by
  unfold eventEnqueue at h
  split at h
  next hperm =>
    obtain ⟨h1, hstate1, hact1, hth1, hlog1⟩ := asyncClientEnter_effect (P := P) hwf hperm
    have hinv1 := h1.inv hinv
    -- the queueing part
    obtain ⟨c₂, hc₂, h2, hs2⟩ : ∃ c₂, (connEvent.elim (asyncClientEnter c)
        fun e => enqueueEvents (asyncClientEnter c) e allocs source) = c₂ ∧
        LockEffect P c connEvent.toList c₂ [] ∧ Steady (asyncClientEnter c) c₂ := by
      cases connEvent with
      | none => exact ⟨_, rfl, h1, .refl _⟩
      | some e =>
        obtain ⟨ha, hf⟩ := halloc e rfl
        obtain ⟨h2, hs2⟩ := enqueueEvents_effect (P := P) (e := e) h1.wf hinv1 hstate1
          (hlog1 ▸ ha) (hlog1 ▸ hf)
          (show allocs.Fresh _ from ⟨hlog1 ▸ hnew.flush, hlog1 ▸ hnew.sslDisconnect, hnew.ne⟩) source
          fun hP => EnqueueSafe.asyncClientEnter_iff.mpr (hsafe hP e rfl hperm)
        exact ⟨_, rfl, h1.trans h2, hs2⟩
    simp only [hc₂] at h
    have hst2 : c₂.state = .asynchronousClient := hs2.state.trans hstate1
    split at h
    · cases h
      refine ⟨h2, hs2.threads.trans hth1, fun x => ?_, by simp [hst2]⟩
      rw [hs2.active, hact1]
      rfl
    · cases h
      have h3 := connEventsProcess_effect (P := P) h2.wf (.inl hst2) none
      refine ⟨(h2.trans h3.effect).congr (by simp) fun x hx => .inl (by simpa using hx), ?_,
        fun x => ?_, h3.complete⟩
      · rw [h3.threads, hs2.threads, hth1]
      · rw [h3.active x, hs2.active, hact1]
  · cases h

/-- **`EventEnqueueFailure` (proved).** -/
theorem eventEnqueueFailure_effect (hwf : c.Wf) (errno : Errno) (source : CodeSource) :
    LockEffect P c [] (eventEnqueueFailure c errno source) [] ∧
      (eventEnqueueFailure c errno source).activeEvent = c.activeEvent ∧
      (eventEnqueueFailure c errno source).transaction.threads = c.transaction.threads ∧
      ((eventEnqueueFailure c errno source).state = .asynchronousEngineComplete ↔
        c.state = .asynchronousEngineComplete) := by
  unfold eventEnqueueFailure
  split
  next hperm =>
    obtain ⟨h1, hstate1, hact1, hth1, _⟩ := asyncClientEnter_effect (P := P) hwf hperm
    obtain ⟨h2, hs2⟩ := eventQueueAbort_effect (P := P) h1.wf none ⟨.failed, errno, source⟩
      (.inr (.inl rfl))
    refine ⟨h1.trans h2, hs2.active.trans hact1, hs2.threads.trans hth1, ?_⟩
    rw [hs2.state, hstate1]
    refine iff_of_false (by simp) fun h => ?_
    rw [queueingPermitted, h] at hperm
    cases hperm
  · exact ⟨.refl hwf, rfl, rfl, Iff.rfl⟩

/-- **`EventsSubmit` (proved).** -/
theorem eventsSubmit_effect (hwf : c.Wf) {qFailure : Bool} {client : ℕ} {source : CodeSource}
    {r : Outcome × Conn} (h : eventsSubmit c qFailure client source = some r) :
    EnterEffect P c [] none r := by
  -- the conn with the submitting thread inside
  suffices hs : ∃ c₁ : Conn, r = connEventsProcessLoop c₁ none ∧ LockEffect P c [] c₁ [] ∧
      c₁.transaction.threads = c.transaction.threads + 1 ∧ c₁.activeEvent = c.activeEvent ∧
      c₁.state = .asynchronousEngine by
    obtain ⟨c₁, rfl, h1, hth, hact, hstate⟩ := hs
    have h2 := connEventsProcessLoop_effect (P := P) h1.wf (by rw [hth]; exact Nat.succ_pos _)
      (.inr hstate) none
    refine ⟨h1.trans h2.effect, ?_, fun x => ?_, h2.complete⟩
    · exact Nat.add_right_cancel (h2.threads.trans (by rw [hth, Nat.add_right_comm]))
    · rw [h2.active x, hact]
  unfold eventsSubmit at h
  simp only [] at h
  split at h
  · cases h
  next herr =>
    have hcases : c.state = .asynchronousClient ∨ c.state = .idle := by
      unfold submitProblem at herr
      split at herr <;> simp_all [Errno.eperm, Errno.ebusy, Errno.einval]
    cases h
    refine ⟨_, rfl, ?_⟩
    rcases hcases with hst | hst
    · have hzero : submitProblem c = 0 := by rw [submitProblem, hst]
      simp only [hzero, ne_eq, not_true_eq_false, if_false]
      refine ⟨.plain ?_ hwf (fun _ => rfl) rfl rfl (fun _ hx => .inl hx) rfl rfl, rfl, rfl, rfl⟩
      exact refines_step (.submit hst) fun _ => trivial
    · have heperm : submitProblem c = Errno.eperm := by rw [submitProblem, hst]
      have hne : Errno.eperm ≠ 0 := by decide
      simp only [heperm, hne, ne_eq, not_false_eq_true, if_true]
      cases hp : c.transaction.problem with
      | none =>
        simp only [setAsyncProblem, hp]
        refine ⟨.plain ?_ hwf (fun _ => rfl) rfl rfl (fun _ hx => .inl hx) rfl rfl, rfl, rfl, rfl⟩
        exact refines_step (.submitEmpty hst hp (.inr (.inl rfl))) fun _ => trivial
      | some p =>
        simp only [setAsyncProblem, hp]
        refine ⟨.plain ?_ hwf (fun _ => rfl) rfl rfl (fun _ hx => .inl hx) rfl rfl, rfl, rfl, rfl⟩
        have hsome : (view c).problem ≠ none := by simp [view, hp]
        exact refines_step (.submitAgain hst hsome) fun _ => trivial

theorem socketClose_effect (hwf : c.Wf) :
    LockEffect P c [] { c with sp := socketClose c.sp } [] ∧
      Steady c { c with sp := socketClose c.sp } :=
  ⟨.plain .init hwf (fun _ => rfl) rfl rfl (fun _ hx => .inl hx) rfl rfl,
    ⟨rfl, rfl, rfl, rfl, rfl⟩⟩

/-- **`connKillEx` (proved).** -/
theorem connKillEx_effect (hwf : c.Wf) (source : CodeSource) :
    LockEffect P c [] (connKillEx c source) [] ∧ Steady c (connKillEx c source) := by
  unfold connKillEx
  split
  · exact socketClose_effect hwf
  · exact socketClose_effect hwf
  · exact eventQueueAbort_effect hwf _ _ (.inr (.inr rfl))
  · exact eventQueueAbort_effect hwf _ _ (.inr (.inr rfl))
  · exact eventQueueAbort_effect hwf _ _ (.inr (.inr rfl))
  · exact ⟨.refl hwf, .refl c⟩

/-- **`ConnHandleConnectionsAbortEx` (proved).** -/
theorem connHandleConnectionsAbort_effect (hwf : c.Wf) (source : CodeSource) :
    LockEffect P c [] (connHandleConnectionsAbort c source) [] ∧
      Steady c (connHandleConnectionsAbort c source) := by
  unfold connHandleConnectionsAbort
  split
  · exact socketClose_effect hwf
  · exact socketClose_effect hwf
  · exact eventQueueAbort_effect hwf _ _ (.inr (.inr rfl))
  · exact eventQueueAbort_effect hwf _ _ (.inr (.inr rfl))
  · exact ⟨.refl hwf, .refl c⟩

/-- **`PrepareForCallback` (proved):** the free list goes to the thread that calls the consumer. -/
theorem prepareForCallback_effect (hinv : QueueInv (view c))
    (hstate : c.state = .asynchronousEngineComplete) :
    LockEffect P c [] (prepareForCallback c).2.2 (prepareForCallback c).2.1 := by
  obtain ⟨hq, _, _⟩ := hinv.state.complete hstate
  have hq : c.queued = [] := hq
  refine .plain ?_ DList.represents_empty (fun x => ?_) rfl rfl (fun _ hx => .inl hx) rfl rfl
  · refine refines_step (ℓ := .prepare) ?_ fun _ => trivial
    refine .prepare hstate ?_ rfl
    show (preserveAsyncSummary c.transaction).status = _
    cases hp : c.transaction.problem <;> simp [preserveAsyncSummary, view, hp]
  · show ([] ++ c.activeEvent.occupied ++ []).count x + c.transaction.freeList.count x =
      (c.queued ++ c.activeEvent.occupied ++ c.transaction.freeList).count x + 0
    simp only [hq, List.count_append, List.count_nil]
    omega

end Calls

end Connio
