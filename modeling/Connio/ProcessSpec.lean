import Connio.Process
import Connio.QueueRefinement

/-!
# What a thread does without the event lock

* `Quiet` — a change that the queue does not see; `Quiet.refines`: it makes quiet abstract steps only;
* `SocketEvent.Ok`, `SOCK.Ok` — a `SocketEvent` is in the engine, or its thread has been begun, exactly
  when it carries an event;
* `SOCK.linked` — the events in the socket engine;
* `ProcessStep`, `eventProcessStep_cases` — the ways a thread can go on;
* `LocalStep`, `eventProcessStep_local` — **PROVED**: all that a step of `ConnEventProcess` can change.
-/

namespace Connio

open Connio.Lib

/-! ### Changes the queue does not see -/

structure Quiet (c c' : Conn) : Prop where
  transaction : c'.transaction = c.transaction
  activeEvent : c'.activeEvent = c.activeEvent
  state : c'.state = c.state
  typeOf : c'.typeOf = c.typeOf
  sendBuffer : c'.sendBuffer = c.sendBuffer
  log : ∃ xs, (∀ x ∈ xs, LogEntry.isQuiet x = true) ∧ c'.log = xs ++ c.log

namespace Quiet

theorem refl (c : Conn) : Quiet c c := ⟨rfl, rfl, rfl, rfl, rfl, [], by simp, rfl⟩

theorem trans {c c' c'' : Conn} (h : Quiet c c') (h' : Quiet c' c'') : Quiet c c'' := by
  obtain ⟨xs, hxs, hlog⟩ := h.log
  obtain ⟨ys, hys, hlog'⟩ := h'.log
  refine ⟨h'.transaction.trans h.transaction, h'.activeEvent.trans h.activeEvent,
    h'.state.trans h.state, h'.typeOf.trans h.typeOf, h'.sendBuffer.trans h.sendBuffer, ys ++ xs, fun x hx => ?_, ?_⟩
  · rcases List.mem_append.mp hx with hx | hx
    · exact hys x hx
    · exact hxs x hx
  · rw [hlog', hlog, List.append_assoc]

theorem note {c c' : Conn} (h : Quiet c c') {x : LogEntry} (hx : x.isQuiet = true) :
    Quiet c (c'.note x) :=
  h.trans ⟨rfl, rfl, rfl, rfl, rfl, [x], by simp [hx], rfl⟩

theorem setEvent {c : Conn} {e : EventId} {ce : ConnEvent} (h : ce.type = (c.events e).type) :
    Quiet c (c.setEvent e ce) :=
  ⟨rfl, rfl, rfl, typeOf_setEvent h, rfl, [], by simp, rfl⟩

theorem socket (c : Conn) (sp : SOCK) : Quiet c { c with sp := sp } :=
  ⟨rfl, rfl, rfl, rfl, rfl, [], by simp, rfl⟩

theorem setStatus (c : Conn) (e : EventId) (st : ConnEventStatus) : Quiet c (c.setStatus e st) :=
  .setEvent rfl

theorem setError (c : Conn) (e : EventId) (err : Errno) : Quiet c (c.setError e err) :=
  .setEvent rfl

theorem wf {c c' : Conn} (h : Quiet c c') (hwf : c.Wf) : c'.Wf := by
  rw [Conn.Wf, Conn.queued, h.transaction]
  exact hwf

theorem held {c c' : Conn} (h : Quiet c c') : c'.held = c.held := by
  rw [Conn.held, Conn.queued, h.transaction, h.activeEvent]
  rfl

/-- Quiet entries carry no event that is allocated or accepted. -/
theorem projections {c c' : Conn} (h : Quiet c c') :
    allocated c'.log = allocated c.log ∧ accepted c'.log = accepted c.log := by
  obtain ⟨xs, hxs, hlog⟩ := h.log
  have hnil : ∀ f : LogEntry → Option EventId, (∀ x, x.isQuiet = true → f x = none) →
      (xs ++ c.log).filterMap f = c.log.filterMap f := by
    intro f hf
    rw [List.filterMap_append, List.filterMap_eq_nil_iff.mpr fun x hx => hf x (hxs x hx)]
    rfl
  rw [hlog]
  refine ⟨hnil _ fun x hx => ?_, hnil _ fun x hx => ?_⟩ <;> cases x <;> first | rfl | cases hx

/-- **A quiet change makes quiet abstract steps (proved).** -/
theorem refines {P : Prop} {c c' : Conn} (h : Quiet c c') : Refines P c c' := by
  obtain ⟨xs, hxs, hlog⟩ := h.log
  have key : ∀ xs : List LogEntry, (∀ x ∈ xs, x.isQuiet = true) →
      ReachableVia QueueStep (fun v ℓ => P → DrainSafe v ℓ) (view c)
        { view c with log := xs ++ c.log } := by
    intro xs
    induction xs with
    | nil => exact fun _ => .init
    | cons x xs ih =>
      intro hx
      exact (ih fun y hy => hx y (List.mem_cons_of_mem _ hy)).next (a := .quiet x)
        (fun _ => trivial) (.quiet (hx x List.mem_cons_self))
  have hview : view c' = { view c with log := xs ++ c.log } := by
    simp only [view, Conn.queued, h.transaction, h.activeEvent, h.state, h.typeOf, hlog]
  rw [Refines, hview]
  exact key xs hxs

end Quiet

/-! ### Releasing resources -/

theorem connEventFreeResources_quiet (c : Conn) (e : EventId) :
    Quiet c (connEventFreeResources c e) := by
  simp only [connEventFreeResources]
  split
  · exact .setEvent rfl
  split
  · split
    · refine .note ?_ rfl
      exact .setEvent rfl
    · exact .refl c
  split
  · split
    · refine .note ?_ rfl
      exact .setEvent rfl
    · exact .refl c
  · exact .refl c

theorem connEventFree_quiet (c : Conn) (e : EventId) : Quiet c (connEventFree c e) :=
  (connEventFreeResources_quiet c e).note rfl

theorem connEventFreeListDestroy_quiet (l : List EventId) :
    ∀ c : Conn, Quiet c (connEventFreeListDestroy c l) := by
  induction l with
  | nil => exact Quiet.refl
  | cons e l ih => exact fun c => (connEventFree_quiet c e).trans (ih _)

theorem clientBufferFree_quiet (c : Conn) (e : EventId) : Quiet c (clientBufferFree c e) := by
  simp only [clientBufferFree]
  split
  · refine .note ?_ rfl
    exact .setEvent rfl
  · exact .refl c

theorem socketEventComplete_quiet (c : Conn) (e : EventId) : Quiet c (socketEventComplete c e) := by
  unfold socketEventComplete
  split
  · exact clientBufferFree_quiet c e
  · exact .socket c _
  · exact .refl c

theorem socketEventAbort_quiet (c : Conn) (e : EventId) : Quiet c (socketEventAbort c e) := by
  unfold socketEventAbort
  split
  · exact clientBufferFree_quiet c e
  all_goals exact .socket c _

/-! ### What stays the same event by event -/

/-- Neither status nor error of any event changes, no memory is freed, and the socket events stay. -/
structure Mild (c c' : Conn) : Prop where
  status : ∀ x, (c'.events x).status = (c.events x).status
  error : ∀ x, (c'.events x).error = (c.events x).error
  freed : freed c'.log = freed c.log
  socket : c'.sp.event = c.sp.event

namespace Mild

theorem refl (c : Conn) : Mild c c := ⟨fun _ => rfl, fun _ => rfl, rfl, rfl⟩

theorem trans {c c' c'' : Conn} (h : Mild c c') (h' : Mild c' c'') : Mild c c'' :=
  ⟨fun x => (h'.status x).trans (h.status x), fun x => (h'.error x).trans (h.error x),
    h'.freed.trans h.freed, h'.socket.trans h.socket⟩

theorem setEvent {c : Conn} {e : EventId} {ce : ConnEvent} (hs : ce.status = (c.events e).status)
    (he : ce.error = (c.events e).error) : Mild c (c.setEvent e ce) := by
  refine ⟨fun x => ?_, fun x => ?_, rfl, rfl⟩ <;> by_cases hx : x = e <;>
    simp [Conn.setEvent, hx, hs, he]

theorem note {c c' : Conn} (h : Mild c c') {x : LogEntry} (hx : x.memFree? = none) :
    Mild c (c'.note x) :=
  h.trans ⟨fun _ => rfl, fun _ => rfl, List.filterMap_cons_none hx, rfl⟩

end Mild

theorem connEventFreeResources_mild (c : Conn) (e : EventId) :
    Mild c (connEventFreeResources c e) := by
  simp only [connEventFreeResources]
  split
  · exact .setEvent rfl rfl
  split
  · split
    · refine .note ?_ rfl
      exact .setEvent rfl rfl
    · exact .refl c
  split
  · split
    · refine .note ?_ rfl
      exact .setEvent rfl rfl
    · exact .refl c
  · exact .refl c

theorem clientBufferFree_mild (c : Conn) (e : EventId) : Mild c (clientBufferFree c e) := by
  simp only [clientBufferFree]
  split
  · refine .note ?_ rfl
    exact .setEvent rfl rfl
  · exact .refl c

theorem socketEventComplete_mild (c : Conn) (e : EventId) : Mild c (socketEventComplete c e) := by
  unfold socketEventComplete
  split
  · exact clientBufferFree_mild c e
  · exact ⟨fun _ => rfl, fun _ => rfl, rfl, rfl⟩
  · exact .refl c

theorem socketEventAbort_mild (c : Conn) (e : EventId) : Mild c (socketEventAbort c e) := by
  unfold socketEventAbort
  split
  · exact clientBufferFree_mild c e
  all_goals exact ⟨fun _ => rfl, fun _ => rfl, rfl, rfl⟩

/-- Destroying a free list frees exactly its events. -/
theorem connEventFreeListDestroy_spec (l : List EventId) : ∀ c : Conn,
    (∀ x, ((connEventFreeListDestroy c l).events x).status = (c.events x).status) ∧
    (∀ x, ((connEventFreeListDestroy c l).events x).error = (c.events x).error) ∧
    freed (connEventFreeListDestroy c l).log = l.reverse ++ freed c.log ∧
    (connEventFreeListDestroy c l).sp.event = c.sp.event := by
  induction l with
  | nil => exact fun c => ⟨fun _ => rfl, fun _ => rfl, rfl, rfl⟩
  | cons e l ih =>
    intro c
    have hm := connEventFreeResources_mild c e
    obtain ⟨h1, h2, h3, h4⟩ := ih (connEventFree c e)
    refine ⟨fun x => (h1 x).trans (hm.status x), fun x => (h2 x).trans (hm.error x), ?_,
      h4.trans hm.socket⟩
    have hfree : freed (connEventFree c e).log = e :: freed c.log := by
      rw [← hm.freed]
      rfl
    rw [show connEventFreeListDestroy c (e :: l) = connEventFreeListDestroy (connEventFree c e) l
      from rfl, h3, hfree]
    simp

/-! ### What happens to the resources -/

/-- The client buffer or the send IOBuffer that goes with the type of the event has been released. -/
structure ConnEvent.Released (ce : ConnEvent) : Prop where
  bufferStart : ce.type = .writeFromClientBuffer → ce.bufferStart = false
  ioBuffer : ce.type.eventClass = .send → ce.type ≠ .writeFromClientBuffer → ce.ioBuffer = false

/-- **Each release gives up a resource** of an event of `S`: a client buffer is given back, or a send
IOBuffer freed, exactly when the pointer to it becomes NULL, and only by an event of the right type; memory
is freed after that. -/
structure Balanced (S : EventId → Prop) (c c' : Conn) : Prop where
  typeOf : ∀ x, (c'.events x).type = (c.events x).type
  client : ∀ x, (clientFreed c'.log).count x + (c'.events x).bufferStart.toNat =
    (clientFreed c.log).count x + (c.events x).bufferStart.toNat
  iob : ∀ x, (iobFreed c'.log).count x + (c'.events x).ioBuffer.toNat =
    (iobFreed c.log).count x + (c.events x).ioBuffer.toNat
  clientOnly : ∀ x, S x ∧ (c.events x).type = .writeFromClientBuffer ∨
    (clientFreed c'.log).count x = (clientFreed c.log).count x
  iobOnly : ∀ x, S x ∧ (c.events x).type.eventClass = .send ∧
    (c.events x).type ≠ .writeFromClientBuffer ∨
    (iobFreed c'.log).count x = (iobFreed c.log).count x
  bufferStart : ∀ x, (c.events x).bufferStart = false → (c'.events x).bufferStart = false
  ioBuffer : ∀ x, (c.events x).ioBuffer = false → (c'.events x).ioBuffer = false
  freed : ∀ x ∈ freed c'.log, x ∈ Connio.freed c.log ∨ (c'.events x).Released

section Balance

variable {S : EventId → Prop}

namespace Balanced

/-- Nothing is released. -/
theorem of_resources {c c' : Conn} (hlog : releases c'.log = releases c.log)
    (h : ∀ x, (c'.events x).resources = (c.events x).resources) : Balanced S c c' := by
  have hclient := clientFreed_of_releases hlog
  have hiob := iobFreed_of_releases hlog
  have hfreed := freed_of_releases hlog
  have hx : ∀ x, (c'.events x).type = (c.events x).type ∧
      (c'.events x).bufferStart = (c.events x).bufferStart ∧
      (c'.events x).ioBuffer = (c.events x).ioBuffer := by
    intro x
    have := h x
    simpa only [ConnEvent.resources, Prod.mk.injEq] using this
  refine ⟨fun x => (hx x).1, fun x => ?_, fun x => ?_, fun x => .inr ?_, fun x => .inr ?_,
    fun x hb => ?_, fun x hb => ?_, fun x hf => .inl (hfreed ▸ hf)⟩
  · rw [hclient, (hx x).2.1]
  · rw [hiob, (hx x).2.2]
  · rw [hclient]
  · rw [hiob]
  · rw [(hx x).2.1, hb]
  · rw [(hx x).2.2, hb]

theorem refl (c : Conn) : Balanced S c c := .of_resources rfl fun _ => rfl

theorem trans {c c' c'' : Conn} (h : Balanced S c c') (h' : Balanced S c' c'') : Balanced S c c'' := by
  refine ⟨fun x => (h'.typeOf x).trans (h.typeOf x), fun x => (h'.client x).trans (h.client x),
    fun x => (h'.iob x).trans (h.iob x), fun x => ?_, fun x => ?_,
    fun x hx => h'.bufferStart x (h.bufferStart x hx), fun x hx => h'.ioBuffer x (h.ioBuffer x hx),
    fun x hx => ?_⟩
  · rcases h.clientOnly x with h1 | h1
    · exact .inl h1
    · have h2 := h'.clientOnly x
      rw [h.typeOf x] at h2
      exact h2.imp_right fun h2 => h2.trans h1
  · rcases h.iobOnly x with h1 | h1
    · exact .inl h1
    · have h2 := h'.iobOnly x
      rw [h.typeOf x] at h2
      exact h2.imp_right fun h2 => h2.trans h1
  · rcases h'.freed x hx with hx | hx
    · refine (h.freed x hx).imp_right fun hr => ⟨fun ht => ?_, fun hc ht => ?_⟩
      · rw [h'.typeOf x] at ht
        exact h'.bufferStart x (hr.bufferStart ht)
      · rw [h'.typeOf x] at hc ht
        exact h'.ioBuffer x (hr.ioBuffer hc ht)
    · exact .inr hx

theorem mono {S' : EventId → Prop} {c c' : Conn} (h : Balanced S c c') (hS : ∀ x, S x → S' x) :
    Balanced S' c c' :=
  ⟨h.typeOf, h.client, h.iob, fun x => (h.clientOnly x).imp_left fun h1 => ⟨hS x h1.1, h1.2⟩,
    fun x => (h.iobOnly x).imp_left fun h1 => ⟨hS x h1.1, h1.2⟩, h.bufferStart, h.ioBuffer, h.freed⟩

end Balanced

/-- The count of an event with one more release. -/
theorem count_cons_event (e x : EventId) (l : List EventId) :
    (e :: l).count x = l.count x + if x = e then 1 else 0 := by
  rw [List.count_cons]
  by_cases hx : x = e
  · simp [hx]
  · simp [hx, Ne.symm hx]

/-- A client buffer is given back, and the pointer to it becomes NULL. -/
theorem clientBufferFree_balanced {c : Conn} {e : EventId} (he : S e)
    (ht : (c.events e).type = .writeFromClientBuffer) : Balanced S c (clientBufferFree c e) := by
  simp only [clientBufferFree]
  split
  next hb =>
    have hevent : ∀ x, ((c.setEvent e { c.events e with bufferStart := false }).note
        (.freeCB e)).events x =
          if x = e then { c.events e with bufferStart := false } else c.events x := fun x => by
      by_cases hx : x = e <;> simp [Conn.setEvent, Conn.note, hx]
    have hclient : ∀ x, (clientFreed ((c.setEvent e { c.events e with bufferStart := false }).note
        (.freeCB e)).log).count x = (clientFreed c.log).count x + if x = e then 1 else 0 :=
      fun x => count_cons_event e x (clientFreed c.log)
    refine ⟨fun x => ?_, fun x => ?_, fun x => ?_, fun x => ?_, fun x => .inr rfl, fun x hx => ?_,
      fun x hx => ?_, fun x hx => .inl hx⟩
    · rw [hevent]
      split <;> simp_all
    · rw [hevent, hclient]
      split <;> simp_all
    · rw [hevent]
      show (iobFreed c.log).count x + _ = _
      split <;> simp_all
    · by_cases hx : x = e
      · exact .inl (hx ▸ ⟨he, ht⟩)
      · exact .inr (by rw [hclient, if_neg hx]; rfl)
    · rw [hevent]
      split
      · rfl
      · exact hx
    · rw [hevent]
      split
      next heq => exact heq ▸ hx
      · exact hx
  · exact .refl c

/-- A send IOBuffer is freed, and the pointer to it becomes NULL. -/
theorem iobFree_balanced {c : Conn} {e : EventId} (he : S e) (hc : (c.events e).type.eventClass = .send)
    (ht : (c.events e).type ≠ .writeFromClientBuffer) (hb : (c.events e).ioBuffer = true) :
    Balanced S c ((c.setEvent e { c.events e with ioBuffer := false }).note (.iobFree e)) := by
  have hevent : ∀ x, ((c.setEvent e { c.events e with ioBuffer := false }).note
      (.iobFree e)).events x =
        if x = e then { c.events e with ioBuffer := false } else c.events x := fun x => by
    by_cases hx : x = e <;> simp [Conn.setEvent, Conn.note, hx]
  have hiob : ∀ x, (iobFreed ((c.setEvent e { c.events e with ioBuffer := false }).note
      (.iobFree e)).log).count x = (iobFreed c.log).count x + if x = e then 1 else 0 :=
    fun x => count_cons_event e x (iobFreed c.log)
  refine ⟨fun x => ?_, fun x => ?_, fun x => ?_, fun x => .inr rfl, fun x => ?_, fun x hx => ?_,
    fun x hx => ?_, fun x hx => .inl hx⟩
  · rw [hevent]
    split <;> simp_all
  · rw [hevent]
    show (clientFreed c.log).count x + _ = _
    split <;> simp_all
  · rw [hevent, hiob]
    split <;> simp_all
  · by_cases hx : x = e
    · exact .inl (hx ▸ ⟨he, hc, ht⟩)
    · exact .inr (by rw [hiob, if_neg hx]; rfl)
  · rw [hevent]
    split
    next heq => exact heq ▸ hx
    · exact hx
  · rw [hevent]
    split
    · rfl
    · exact hx

/-- **`ConnEventFreeResources` (proved):** it releases what is left. -/
theorem connEventFreeResources_balanced (c : Conn) {e : EventId} (he : S e) :
    Balanced S c (connEventFreeResources c e) ∧
      ((connEventFreeResources c e).events e).Released := by
  simp only [connEventFreeResources]
  split
  next ht =>
    refine ⟨.of_resources rfl fun x => ?_, ⟨fun h => ?_, fun h _ => ?_⟩⟩
    · by_cases hx : x = e <;> simp [Conn.setEvent, hx, ConnEvent.resources]
    · simp [Conn.setEvent, ht] at h
    · simp [Conn.setEvent, ht, ConnEventType.eventClass] at h
  split
  next ht =>
    refine ⟨clientBufferFree_balanced he ht, ⟨fun _ => ?_, fun _ h => ?_⟩⟩
    · split
      · simp [Conn.setEvent, Conn.note]
      next hb => simpa using hb
    · exfalso
      revert h
      split <;> simp [Conn.setEvent, Conn.note, ht]
  next ht =>
  split
  next hc =>
    split
    next hb =>
      refine ⟨iobFree_balanced he hc ht hb, ⟨fun h => ?_, fun _ _ => ?_⟩⟩
      · simp [Conn.setEvent, Conn.note, ht] at h
      · simp [Conn.setEvent, Conn.note]
    next hb => exact ⟨.refl c, ⟨fun h => absurd h ht, fun _ _ => by simpa using hb⟩⟩
  next hc => exact ⟨.refl c, ⟨fun h => absurd h ht, fun h => absurd h hc⟩⟩

/-- `ConnEventFree`: the memory is freed when everything has been released. -/
theorem connEventFree_balanced (c : Conn) {e : EventId} (he : S e) : Balanced S c (connEventFree c e) := by
  obtain ⟨h, hr⟩ := connEventFreeResources_balanced c he
  refine ⟨h.typeOf, h.client, h.iob, h.clientOnly, h.iobOnly, h.bufferStart, h.ioBuffer,
    fun x hx => ?_⟩
  rcases List.mem_cons.mp (show x ∈ e :: freed (connEventFreeResources c e).log from hx) with rfl | hx
  · exact .inr hr
  · exact h.freed x hx

theorem connEventFreeListDestroy_balanced (l : List EventId) :
    (∀ e ∈ l, S e) → ∀ c : Conn, Balanced S c (connEventFreeListDestroy c l) := by
  induction l with
  | nil => exact fun _ => Balanced.refl
  | cons e l ih =>
    exact fun hl c => (connEventFree_balanced c (hl e List.mem_cons_self)).trans
      (ih (fun x hx => hl x (List.mem_cons_of_mem _ hx)) _)

theorem socketEventComplete_balanced (c : Conn) {e : EventId} (he : S e) :
    Balanced S c (socketEventComplete c e) := by
  unfold socketEventComplete
  split
  next ht => exact clientBufferFree_balanced he ht
  · exact .of_resources rfl fun _ => rfl
  · exact .refl c

theorem socketEventAbort_balanced (c : Conn) {e : EventId} (he : S e) : Balanced S c (socketEventAbort c e) := by
  unfold socketEventAbort
  split
  next ht => exact clientBufferFree_balanced he ht
  all_goals exact .of_resources rfl fun _ => rfl

/-! ### The process function -/

theorem setEvent_balanced {c : Conn} {e : EventId} {ce : ConnEvent}
    (h : ce.resources = (c.events e).resources) : Balanced S c (c.setEvent e ce) := by
  refine .of_resources rfl fun x => ?_
  by_cases hx : x = e <;> simp [Conn.setEvent, hx, h]

theorem note_mild_balanced {c c' : Conn} (hm : Mild c c') (hb : Balanced S c c') {x : LogEntry}
    (hx : x.isRelease = false) : Mild c (c'.note x) ∧ Balanced S c (c'.note x) := by
  have hreleases : releases (c'.note x).log = releases c'.log :=
    List.filter_cons_of_neg (by simp [hx])
  refine ⟨hm.note ?_, hb.trans (.of_resources hreleases fun _ => rfl)⟩
  cases x <;> first | rfl | cases hx

theorem sslConnect_event (sp : SOCK) (new : Option ℕ) (ret : SslResult) :
    (sslConnect sp new ret).2.event = sp.event := by
  unfold sslConnect
  split
  · rfl
  · split
    · rfl
    · split <;> rfl

theorem socketSSLDisconnect_event (sp : SOCK) (ret : SslResult) :
    (socketSSLDisconnect sp ret).2.event = sp.event := by
  unfold socketSSLDisconnect
  split
  · split <;> rfl
  · rfl

/-- A call on the socket that leaves its socket events alone. -/
theorem socketCall_frame (c : Conn) (sp : SOCK) {x : LogEntry} (hev : sp.event = c.sp.event)
    (hq : x.isQuiet = true) (hx : x.isRelease = false) :
    Quiet c ({ c with sp := sp }.note x) ∧ Mild c ({ c with sp := sp }.note x) ∧
      Balanced S c ({ c with sp := sp }.note x) := by
  have hm : Mild c { c with sp := sp } := ⟨fun _ => rfl, fun _ => rfl, rfl, hev⟩
  exact ⟨(Quiet.socket c sp).note hq, note_mild_balanced hm (.of_resources rfl fun _ => rfl) hx⟩

theorem processMove_frame {c c' : Conn} {e : EventId} {m : ProcessMove}
    {r : Option (Errno × SocketEventType)} (h : processMove c e m = some (r, c')) :
    Quiet c c' ∧ Mild c c' ∧ Balanced S c c' := by
  have hnote : ∀ x : LogEntry, x.isQuiet = true → x.isRelease = false →
      Quiet c (c.note x) ∧ Mild c (c.note x) ∧ Balanced S c (c.note x) := fun x hq hx =>
    ⟨(Quiet.refl c).note hq, note_mild_balanced (.refl c) (.refl c) hx⟩
  have hbuffer : ∀ (data : List Octet) (x : LogEntry), x.isQuiet = true → x.isRelease = false →
      Quiet c ({ c with receiveBuffer := data }.note x) ∧
        Mild c ({ c with receiveBuffer := data }.note x) ∧
        Balanced S c ({ c with receiveBuffer := data }.note x) := fun data x hq hx => by
    have hm : Mild c { c with receiveBuffer := data } := ⟨fun _ => rfl, fun _ => rfl, rfl, rfl⟩
    exact ⟨⟨rfl, rfl, rfl, rfl, rfl, [x], by simp [hq], rfl⟩,
      note_mild_balanced hm (.of_resources rfl fun _ => rfl) hx⟩
  cases m <;> simp only [processMove] at h
  case send | ioCallback | connWrite =>
    split at h <;> cases h
    exact hnote _ rfl rfl
  case receive =>
    split at h
    · cases h
      exact hbuffer _ _ rfl rfl
    · split at h <;> cases h
      exact hnote _ rfl rfl
  case deliver =>
    split at h <;> cases h
    exact hbuffer _ _ rfl rfl
  case transfer =>
    split at h <;> cases h
    exact ⟨.setEvent rfl, .setEvent rfl rfl, setEvent_balanced rfl⟩
  case connectStart =>
    split at h <;> cases h
    exact socketCall_frame c _ rfl rfl rfl
  case disconnectStart =>
    split at h
    · split at h <;> cases h
      · exact ⟨⟨rfl, rfl, rfl, rfl, rfl, [], by simp, rfl⟩, ⟨fun _ => rfl, fun _ => rfl, rfl, rfl⟩,
          .of_resources rfl fun _ => rfl⟩
      · exact hbuffer _ _ rfl rfl
    · cases h
  case shutdown ret =>
    split at h <;> cases h
    exact socketCall_frame c _ (socketSSLDisconnect_event c.sp ret) rfl rfl
  case ret =>
    obtain ⟨r', _, heq⟩ := Option.map_eq_some_iff.mp h
    cases heq
    exact ⟨.refl c, .refl c, .refl c⟩

end Balance

/-! ### Socket events -/

/-- **A socket event is in the engine, or its thread has been begun, exactly when it carries an event.** -/
structure SocketEvent.Ok (k : ConnEventClass) (se : SocketEvent) : Prop where
  idle : se.arg = none → se.inEngine = false ∧ se.begun = 0
  busy : se.arg ≠ none → se.begun = if se.inEngine then 0 else 1
  error : se.inEngine = true → se.error = 0
  slot : se.arg ≠ none → k ≠ .connect ∧ socketEventSlot se.type = some k

def SOCK.Ok (sp : SOCK) : Prop := ∀ k, (sp.event.get k).Ok k

/-- The events in the socket engine. -/
def SOCK.linked (sp : SOCK) : List EventId :=
  sp.event.connect.arg.toList ++ sp.event.receive.arg.toList ++ sp.event.send.arg.toList

theorem SOCK.mem_linked {sp : SOCK} {x : EventId} :
    x ∈ sp.linked ↔ ∃ k, (sp.event.get k).arg = some x := by
  simp only [linked, List.mem_append, Option.mem_toList, or_assoc]
  constructor
  · rintro (h | h | h)
    exacts [⟨.connect, h⟩, ⟨.receive, h⟩, ⟨.send, h⟩]
  · rintro ⟨k, h⟩
    cases k
    exacts [.inl h, .inr (.inl h), .inr (.inr h)]

theorem SocketEvent.Ok.initial (k : ConnEventClass) : SocketEvent.Ok k {} :=
  ⟨fun _ => ⟨rfl, rfl⟩, fun h => absurd rfl h, fun h => absurd h (by simp), fun h => absurd rfl h⟩

/-- Replace one socket event. -/
def SOCK.setSocketEvent (sp : SOCK) (k : ConnEventClass) (se : SocketEvent) : SOCK :=
  { sp with event := sp.event.set k se }

theorem SOCK.linked_setSocketEvent (sp : SOCK) (k : ConnEventClass) (se : SocketEvent)
    (x : EventId) : (sp.setSocketEvent k se).linked.count x + (sp.event.get k).arg.toList.count x =
      sp.linked.count x + se.arg.toList.count x := by
  cases k <;> simp only [linked, setSocketEvent, Slots.set, Slots.get, List.count_append] <;> omega

theorem SOCK.Ok.setSocketEvent {sp : SOCK} (h : sp.Ok) {k : ConnEventClass} {se : SocketEvent}
    (hse : se.Ok k) : (sp.setSocketEvent k se).Ok := by
  intro k'
  show ((sp.event.set k se).get k').Ok k'
  rw [Slots.get_set]
  split
  · next heq => exact heq ▸ hse
  · exact h k'

/-- A socket event that completes keeps its event and begins its thread. -/
theorem beginIf_complete (se : SocketEvent) :
    (beginIf se.complete).arg = se.arg ∧ (beginIf se.complete).type = se.type ∧
      (beginIf se.complete).error = se.error ∧ (beginIf se.complete).inEngine = false ∧
      (beginIf se.complete).begun = if se.inEngine then se.begun + 1 else se.begun := by
  obtain ⟨_, _, _, inEngine, _⟩ := se
  cases inEngine <;> exact ⟨rfl, rfl, rfl, rfl, rfl⟩

theorem SocketEvent.Ok.complete {k : ConnEventClass} {se : SocketEvent} (h : se.Ok k)
    (error : Errno) : (beginIf { se with error := error }.complete).Ok k := by
  obtain ⟨harg, htype, _, hin, hbegun⟩ := beginIf_complete { se with error := error }
  refine ⟨fun hn => ⟨hin, ?_⟩, fun hn => ?_, fun he => ?_, fun hn => ?_⟩
  · rw [harg] at hn
    obtain ⟨h1, h2⟩ := h.idle hn
    rw [hbegun]
    simp [h1, h2]
  · rw [harg] at hn
    have hb := h.busy hn
    rw [hin, hbegun]
    cases hi : se.inEngine <;> simp [hi] at hb ⊢ <;> omega
  · rw [hin] at he
    cases he
  · rw [harg] at hn
    rw [htype]
    exact h.slot hn

theorem SocketEvent.Ok.kill {k : ConnEventClass} {se : SocketEvent} (h : se.Ok k) : se.kill.Ok k :=
  h.complete Errno.ecanceled

theorem SocketEvent.kill_arg (se : SocketEvent) : se.kill.arg = se.arg :=
  (beginIf_complete { se with error := Errno.ecanceled }).1

/-- Completing a socket event, whatever its error becomes, keeps the events in the engine. -/
theorem SOCK.Ok.completed {sp : SOCK} (h : sp.Ok) (k : ConnEventClass) (error : Errno) :
    (sp.setSocketEvent k (beginIf { sp.event.get k with error := error }.complete)).Ok ∧
      ∀ x, (sp.setSocketEvent k
        (beginIf { sp.event.get k with error := error }.complete)).linked.count x =
          sp.linked.count x := by
  refine ⟨h.setSocketEvent ((h k).complete error), fun x => ?_⟩
  have hset := sp.linked_setSocketEvent k (beginIf { sp.event.get k with error := error }.complete) x
  rw [(beginIf_complete _).1] at hset
  exact Nat.add_right_cancel hset

theorem socketEventHandle_eq (se : SocketEvent) (events : PollEvents) :
    ∃ error, socketEventHandle se events = { se with error := error }.complete := by
  unfold socketEventHandle
  cases events <;> simp only [] <;> split <;> exact ⟨_, rfl⟩

/-- What the poll thread does to a ready socket event. -/
theorem pollReady_eq (sp : SOCK) (k : ConnEventClass) (events : PollEvents) :
    pollReady sp k events = sp ∨ ∃ error, pollReady sp k events =
      sp.setSocketEvent k (beginIf { sp.event.get k with error := error }.complete) := by
  unfold pollReady
  split
  · obtain ⟨error, heq⟩ := socketEventHandle_eq (sp.event.get k) events
    exact .inr ⟨error, by rw [heq]; rfl⟩
  · exact .inl rfl

/-- **`HandleSocketEvent` (proved):** the event leaves the engine with its callback thread. -/
theorem handleSocketEvent_some {sp sp' : SOCK} {k : ConnEventClass} {e : EventId}
    {type : SocketEventType} {error : Errno} (h : sp.Ok)
    (hs : handleSocketEvent sp k = some (e, type, error, sp')) :
    sp'.Ok ∧ (∀ x, sp'.linked.count x + [e].count x = sp.linked.count x) ∧
      (sp.event.get k).arg = some e ∧ (sp.event.get k).inEngine = false ∧
      error = (sp.event.get k).error ∧
      sp' = sp.setSocketEvent k { sp.event.get k with arg := none, begun := 0 } := by
  unfold handleSocketEvent at hs
  simp only [] at hs
  split at hs
  next n e' hbegun harg =>
    cases hs
    have hbusy := (h k).busy (by rw [harg]; simp)
    have hin : (sp.event.get k).inEngine = false := by
      cases hi : (sp.event.get k).inEngine
      · rfl
      · rw [hi, hbegun] at hbusy
        cases hbusy
    have hn : n = 0 := by
      rw [hin, hbegun] at hbusy
      exact Nat.succ.inj hbusy
    subst hn
    have hok : SocketEvent.Ok k { sp.event.get k with arg := none, begun := 0 } :=
      ⟨fun _ => ⟨hin, rfl⟩, fun hne => absurd rfl hne, fun he => absurd (hin.symm.trans he) (by simp),
        fun hne => absurd rfl hne⟩
    refine ⟨h.setSocketEvent hok, fun x => ?_, harg, hin, rfl, rfl⟩
    have hset := sp.linked_setSocketEvent k { sp.event.get k with arg := none, begun := 0 } x
    rw [harg] at hset
    exact hset
  · cases hs

/-- **`SocketEventWaitEx` (proved):** an accepted event is in the engine, a refused one is not. -/
theorem socketEventWaitEx_spec {sp sp' : SOCK} {type : SocketEventType} {e : EventId}
    {epollErr err : Errno} (h : sp.Ok) (hw : socketEventWaitEx sp type e epollErr = (err, sp')) :
    (err = 0 ∧ ∃ k, k ≠ .connect ∧ sp.number ≠ none ∧ (sp.event.get k).arg = none ∧
      sp' = sp.setSocketEvent k { sp.event.get k with
        arg := some e, type := sockEventTranslate type, error := 0, inEngine := true } ∧ sp'.Ok) ∨
    (err ≠ 0 ∧ (sp' = sp ∨ ∃ k, (sp.event.get k).arg = none ∧
      sp' = sp.setSocketEvent k { sp.event.get k with
        arg := none, type := sockEventTranslate type, error := 0, inEngine := false } ∧ sp'.Ok)) := by
  unfold socketEventWaitEx at hw
  split at hw
  · cases hw
    exact .inr ⟨by decide, .inl rfl⟩
  next k hk =>
  have hkc : k ≠ .connect := by
    rintro rfl
    cases type <;> simp [sockEventTranslate, socketEventSlot] at hk
  split at hw
  · cases hw
    exact .inr ⟨by decide, .inl rfl⟩
  next hnum =>
  unfold seLinkCe at hw
  cases harg : (sp.event.get k).arg with
  | some e' =>
    simp only [harg] at hw
    cases hw
    exact .inr ⟨by decide, .inl rfl⟩
  | none =>
    obtain ⟨hin, hbegun⟩ := (h k).idle harg
    simp only [harg, sockEventAdd] at hw
    by_cases hep : epollErr = 0
    · simp only [hep, ne_eq, not_true_eq_false, if_false] at hw
      cases hw
      refine .inl ⟨rfl, k, hkc, hnum, harg, rfl, h.setSocketEvent ⟨fun hn => ?_, fun _ => ?_,
        fun _ => rfl, fun _ => ⟨hkc, hk⟩⟩⟩
      · cases hn
      · exact hbegun
    · obtain ⟨n, rfl⟩ := Nat.exists_eq_succ_of_ne_zero hep
      simp only [ne_eq, hep, not_false_eq_true, if_true] at hw
      cases hw
      refine .inr ⟨hep, .inr ⟨k, harg, rfl, h.setSocketEvent ⟨fun _ => ⟨rfl, hbegun⟩,
        fun hn => absurd rfl hn, fun he => ?_, fun hn => absurd rfl hn⟩⟩⟩
      cases he

/-! ### One step of `ConnEventProcess` -/

namespace Stage

/-- The free list a thread still has to destroy. -/
def freeList : Stage → List EventId
  | .destroying freeList => freeList
  | _ => []

/-- The thread owns its event: it has not handed it to the engine. -/
def holding : Stage → Bool
  | .returned .inProgress => false
  | _ => true

/-- The event that a thread of this stage owns. -/
def owned (stage : Stage) (e : EventId) : List EventId := if stage.holding then [e] else []

end Stage

/-- The statuses with which an event leaves its slot. -/
def ConnEventStatus.Final (st : ConnEventStatus) : Prop := st ≠ .queued ∧ st ≠ .inProgress

/-- **All that a step of `ConnEventProcess` for `e` can change.** -/
structure LocalStep (c : Conn) (e : EventId) (stage : Stage) (c' : Conn) (stage' : Stage) : Prop where
  quiet : Quiet c c'
  balanced : Balanced (fun x => x = e ∨ x ∈ stage.freeList) c c'
  holding : stage.holding = true
  status : ∀ x, x ≠ e → (c'.events x).status = (c.events x).status
  error : ∀ x, x ≠ e → (c'.events x).error = (c.events x).error
  /-- the result is the status of the event -/
  returned : ∀ st, stage' = .returned st →
    st = .inProgress ∨ (st.Final ∧ (c'.events e).status = st)
  frees : freed c'.log = stage.freeList.reverse ++ freed c.log
  freeList : stage'.freeList = []
  socket : c'.sp.Ok
  /-- the event is with the thread or in the engine -/
  linked : ∀ x, c'.sp.linked.count x + (stage'.owned e).count x = c.sp.linked.count x + [e].count x

theorem SOCK.Ok.of_event {sp sp' : SOCK} (h : sp.Ok) (heq : sp'.event = sp.event) : sp'.Ok := by
  intro k
  rw [heq]
  exact h k

theorem SOCK.linked_of_event {sp sp' : SOCK} (heq : sp'.event = sp.event) :
    sp'.linked = sp.linked := by
  rw [SOCK.linked, heq]
  rfl

/-- A step that keeps its event and destroys nothing. -/
theorem LocalStep.of_quiet {c c' : Conn} {e : EventId} {stage stage' : Stage} (h : c.sp.Ok)
    (hq : Quiet c c') (hb : Balanced (fun x => x = e ∨ x ∈ stage.freeList) c c')
    (hstatus : ∀ x, x ≠ e → (c'.events x).status = (c.events x).status)
    (herror : ∀ x, x ≠ e → (c'.events x).error = (c.events x).error)
    (hfreed : freed c'.log = freed c.log) (hsocket : c'.sp.event = c.sp.event)
    (hstage : stage.holding = true) (hl : stage.freeList = []) (hstage' : stage'.holding = true)
    (hl' : stage'.freeList = [])
    (hret : ∀ st, stage' = .returned st → st.Final ∧ (c'.events e).status = st) :
    LocalStep c e stage c' stage' := by
  refine ⟨hq, hb, hstage, hstatus, herror, fun st hst => .inr (hret st hst), ?_, hl',
    h.of_event hsocket, fun x => ?_⟩
  · rw [hl]
    exact hfreed
  · rw [SOCK.linked_of_event hsocket, Stage.owned, hstage', if_pos rfl]

theorem LocalStep.of_mild {c c' : Conn} {e : EventId} {stage stage' : Stage} (h : c.sp.Ok)
    (hq : Quiet c c') (hm : Mild c c') (hb : Balanced (fun x => x = e ∨ x ∈ stage.freeList) c c')
    (hstage : stage.holding = true) (hl : stage.freeList = []) (hstage' : stage'.holding = true)
    (hl' : stage'.freeList = []) (hret : ∀ st, stage' ≠ .returned st) : LocalStep c e stage c' stage' :=
  .of_quiet h hq hb (fun x _ => hm.status x) (fun x _ => hm.error x) hm.freed hm.socket hstage hl hstage'
    hl' fun st hst => absurd hst (hret st)

/-- The end of `ConnEventProcess`, after a change that is mild. -/
theorem connEventProcessEnd_local {c c₁ : Conn} {e : EventId} {stage : Stage}
    {st : ConnEventStatus} (h : c.sp.Ok) (hq : Quiet c c₁) (hm : Mild c c₁)
    (hb : Balanced (fun x => x = e ∨ x ∈ stage.freeList) c c₁)
    (hstage : stage.holding = true) (hl : stage.freeList = []) (hst : st.Final) :
    LocalStep c e stage (connEventProcessEnd c₁ e st).2 (connEventProcessEnd c₁ e st).1 := by
  have hm' := hm.trans (connEventFreeResources_mild c₁ e)
  refine .of_quiet h ((hq.trans (connEventFreeResources_quiet c₁ e)).trans (.setEvent rfl))
    ((hb.trans (connEventFreeResources_balanced c₁ (.inl rfl)).1).trans (setEvent_balanced rfl))
    (fun x hx => ?_) (fun x hx => ?_) hm'.freed hm'.socket hstage hl ?_ rfl fun st' hst' => ?_
  · rw [← hm'.status x]
    simp [connEventProcessEnd, Conn.setStatus, Conn.setEvent, hx]
  · rw [← hm'.error x]
    simp [connEventProcessEnd, Conn.setStatus, Conn.setEvent, hx]
  · show Stage.holding (.returned st) = true
    cases st <;> first | rfl | exact absurd rfl hst.2
  · cases hst'
    exact ⟨hst, by simp [connEventProcessEnd, Conn.setStatus, Conn.setEvent]⟩

theorem setError_local {c c₁ : Conn} {e : EventId} {stage stage' : Stage} {err : Errno} (h : c.sp.Ok)
    (hq : Quiet c c₁) (hm : Mild c c₁) (hb : Balanced (fun x => x = e ∨ x ∈ stage.freeList) c c₁)
    (hstage : stage.holding = true)
    (hl : stage.freeList = []) (hstage' : stage'.holding = true) (hl' : stage'.freeList = [])
    (hret : ∀ st, stage' ≠ .returned st) : LocalStep c e stage (c₁.setError e err) stage' := by
  refine .of_quiet h (hq.trans (.setEvent rfl)) (hb.trans (setEvent_balanced rfl)) (fun x hx => ?_) (fun x hx => ?_)
    hm.freed hm.socket hstage hl hstage' hl' fun st hst => absurd hst (hret st)
  · rw [← hm.status x]
    simp [Conn.setError, Conn.setEvent, hx]
  · rw [← hm.error x]
    simp [Conn.setError, Conn.setEvent, hx]

/-- What `EventProcess` does when `socketEventProcess` has returned, after a change that is mild. -/
theorem processReturned_local {c c₁ : Conn} {e : EventId} {stage : Stage} (h : c.sp.Ok)
    (hq : Quiet c c₁) (hm : Mild c c₁) (hb : Balanced (fun x => x = e ∨ x ∈ stage.freeList) c c₁)
    (hstage : stage.holding = true) (hl : stage.freeList = []) (r : Errno × SocketEventType) :
    LocalStep c e stage (processReturned c₁ e r).2 (processReturned c₁ e r).1 := by
  obtain ⟨err, blockedOn⟩ := r
  simp only [processReturned]
  split
  · exact connEventProcessEnd_local h (hq.trans (socketEventComplete_quiet c₁ e))
      (hm.trans (socketEventComplete_mild c₁ e))
      (hb.trans (socketEventComplete_balanced c₁ (.inl rfl))) hstage hl ⟨by simp, by simp⟩
  split
  · exact .of_mild h hq hm hb hstage hl rfl rfl fun st hst => by cases hst
  · exact setError_local h hq hm hb hstage hl rfl rfl fun st hst => by cases hst

theorem abortStatus_final (ce : ConnEvent) : (abortStatus ce).Final := by
  unfold abortStatus
  split
  · exact ⟨by simp, by simp⟩
  · split <;> exact ⟨by simp, by simp⟩

theorem submitToEngine_local {c : Conn} {e : EventId} {stage : Stage} (h : c.sp.Ok)
    (blockedOn : SocketEventType) (epollErr : Errno) (hstage : stage.holding = true)
    (hl : stage.freeList = []) :
    LocalStep c e stage (submitToEngine c e blockedOn epollErr).2
      (submitToEngine c e blockedOn epollErr).1 := by
  have hother : ∀ st x, x ≠ e → (c.setStatus e st).events x = c.events x := fun st x hx => by
    simp [Conn.setStatus, Conn.setEvent, hx]
  cases hw : socketEventWaitEx c.sp blockedOn e epollErr with
  | mk err sp =>
  rcases socketEventWaitEx_spec h hw with ⟨rfl, k, _, _, harg, rfl, hok⟩ | ⟨herr, hsp⟩
  · -- the event is in the engine
    have heq : submitToEngine c e blockedOn epollErr = (.returned .inProgress,
        { c.setStatus e .inProgress with sp := c.sp.setSocketEvent k { c.sp.event.get k with
          arg := some e, type := sockEventTranslate blockedOn, error := 0, inEngine := true } }.note
          (.wait e)) := by
      simp only [submitToEngine]
      rw [show (c.setStatus e .inProgress).sp = c.sp from rfl, hw]
      rfl
    rw [heq]
    refine ⟨?_, ?_, hstage, fun x hx => ?_, fun x hx => ?_, fun st hst => ?_, ?_, rfl, hok,
      fun x => ?_⟩
    · exact .note ((Quiet.setStatus c e .inProgress).trans (.socket _ _)) rfl
    · refine .of_resources rfl fun x => ?_
      by_cases hx : x = e <;>
        simp [Conn.setStatus, Conn.setEvent, Conn.note, hx, ConnEvent.resources]
    · exact congrArg ConnEvent.status (hother _ x hx)
    · exact congrArg ConnEvent.error (hother _ x hx)
    · cases hst
      exact .inl rfl
    · rw [hl]
      rfl
    · have hset := c.sp.linked_setSocketEvent k { c.sp.event.get k with
        arg := some e, type := sockEventTranslate blockedOn, error := 0, inEngine := true } x
      rw [harg] at hset
      exact hset
  · -- the engine refused the event
    have heq : submitToEngine c e blockedOn epollErr = (.aborting,
        ({ c.setStatus e .inProgress with sp := sp }.setStatus e .failed).setError e err) := by
      simp only [submitToEngine]
      rw [show (c.setStatus e .inProgress).sp = c.sp from rfl, hw]
      cases err with
      | zero => exact absurd rfl herr
      | succ n => rfl
    have hlinked : sp.Ok ∧ ∀ x, sp.linked.count x = c.sp.linked.count x := by
      rcases hsp with rfl | ⟨k, harg, rfl, hok⟩
      · exact ⟨h, fun _ => rfl⟩
      · refine ⟨hok, fun x => ?_⟩
        have hset := c.sp.linked_setSocketEvent k { c.sp.event.get k with
          arg := none, type := sockEventTranslate blockedOn, error := 0, inEngine := false } x
        rw [harg] at hset
        exact hset
    have hother' : ∀ x, x ≠ e → (({ c.setStatus e .inProgress with sp := sp }.setStatus e
        .failed).setError e err).events x = c.events x := fun x hx => by
      simp [Conn.setError, Conn.setStatus, Conn.setEvent, hx]
    rw [heq]
    refine ⟨?_, ?_, hstage, fun x hx => ?_, fun x hx => ?_, fun st hst => ?_, ?_, rfl, hlinked.1,
      fun x => ?_⟩
    · exact (((Quiet.setStatus c e .inProgress).trans (.socket _ sp)).trans
        (.setStatus _ e .failed)).trans (.setError _ e err)
    · refine .of_resources rfl fun x => ?_
      by_cases hx : x = e <;>
        simp [Conn.setError, Conn.setStatus, Conn.setEvent, hx, ConnEvent.resources]
    · exact congrArg ConnEvent.status (hother' x hx)
    · exact congrArg ConnEvent.error (hother' x hx)
    · cases hst
    · rw [hl]
      rfl
    · exact congrArg (· + [e].count x) (hlinked.2 x)

/-! ### The steps of a thread -/

/-- **What a thread that processes `e` can do next,** one case for each way; `result` is where it goes and the conn it
leaves. -/
inductive ProcessStep (c : Conn) (e : EventId) (result : Stage × Conn) : Stage → StageMove → Prop
  | destroy (freeList : List EventId) (hresult : (.starting, connEventFreeListDestroy c freeList) = result) :
      ProcessStep c e result (.destroying freeList) .destroy
  | start (hresult : (if (c.events e).error = 0 then .processing else .aborting, c) = result) :
      ProcessStep c e result .starting .test
  /-- the process function makes a call and goes on -/
  | move {m : ProcessMove} {c₁ : Conn} (hmove : processMove c e m = some (none, c₁))
      (hresult : (.processing, c₁) = result) : ProcessStep c e result .processing (.process m)
  /-- the process function returns -/
  | processed {m : ProcessMove} {r : Errno × SocketEventType} {c₁ : Conn}
      (hmove : processMove c e m = some (some r, c₁)) (hresult : processReturned c₁ e r = result) :
      ProcessStep c e result .processing (.process m)
  | empty (htype : (c.typeOf e).isHandshake = true) (hempty : c.receiveBuffer = [])
      (hresult : (.handshaking, c) = result) : ProcessStep c e result .processing .checkBuffer
  | overflow (htype : (c.typeOf e).isHandshake = true) (hfull : c.receiveBuffer ≠ [])
      (hresult : processReturned c e (Errno.eoverflow, .none) = result) :
      ProcessStep c e result .processing .checkBuffer
  | handshake (new : Option ℕ) (ret : SslResult)
      (hresult : processReturned ({ c with sp := (sslConnect c.sp new ret).2 }.note (.io e .sslHandshake)) e
        (sslConnect c.sp new ret).1 = result) : ProcessStep c e result .handshaking (.handshake new ret)
  | cancelled (blockedOn : SocketEventType) (hproblem : c.transaction.problem ≠ none)
      (hresult : (.aborting, c.setError e Errno.ecanceled) = result) : ProcessStep c e result (.blocked blockedOn) .test
  | unproblematic (blockedOn : SocketEventType) (hproblem : c.transaction.problem = none)
      (hresult : (.submitting blockedOn, c) = result) : ProcessStep c e result (.blocked blockedOn) .test
  | submit (blockedOn : SocketEventType) (epollErr : Errno) (hresult : submitToEngine c e blockedOn epollErr = result) :
      ProcessStep c e result (.submitting blockedOn) (.submit epollErr)
  | abort (hresult : (.aborted, socketEventAbort c e) = result) : ProcessStep c e result .aborting .abort
  | judge (hresult : connEventProcessEnd c e (abortStatus (c.events e)) = result) :
      ProcessStep c e result .aborted .judge

theorem eventProcessStep_cases {c : Conn} {e : EventId} {stage : Stage} {m : StageMove} {result : Stage × Conn}
    (h : eventProcessStep c e stage m = some result) : ProcessStep c e result stage m := by
  unfold eventProcessStep at h
  split at h
  · exact .destroy _ (Option.some.inj h)
  · exact .start (Option.some.inj h)
  · split at h
    next hmove => exact .move hmove (Option.some.inj h)
    next hmove => exact .processed hmove (Option.some.inj h)
    · cases h
  · split at h
    next htype =>
      split at h
      next hempty => exact .empty htype hempty (Option.some.inj h)
      next hfull => exact .overflow htype hfull (Option.some.inj h)
    · cases h
  · exact .handshake _ _ (Option.some.inj h)
  · split at h
    next hproblem => exact .cancelled _ (Option.isSome_iff_ne_none.mp hproblem) (Option.some.inj h)
    next hproblem => exact .unproblematic _ (by simpa using hproblem) (Option.some.inj h)
  · exact .submit _ _ (Option.some.inj h)
  · exact .abort (Option.some.inj h)
  · exact .judge (Option.some.inj h)
  · cases h

/-- **One step of `ConnEventProcess` (proved).** -/
theorem eventProcessStep_local {c c' : Conn} {e : EventId} {stage stage' : Stage} {m : StageMove}
    (h : c.sp.Ok) (hs : eventProcessStep c e stage m = some (stage', c')) :
    LocalStep c e stage c' stage' := by
  cases eventProcessStep_cases hs with
  | destroy freeList hresult =>
    cases hresult
    obtain ⟨h1, h2, h3, h4⟩ := connEventFreeListDestroy_spec freeList c
    refine ⟨connEventFreeListDestroy_quiet freeList c,
      connEventFreeListDestroy_balanced freeList (fun x hx => .inr hx) c, rfl, fun x _ => h1 x, fun x _ => h2 x,
      fun st hst => ?_, h3, rfl, h.of_event h4, fun x => ?_⟩
    · cases hst
    · rw [SOCK.linked_of_event h4]
      rfl
  | start hresult =>
    cases hresult
    split <;> exact .of_mild h (.refl c) (.refl c) (.refl c) rfl rfl rfl rfl fun st hst => by cases hst
  | move hmove hresult =>
    cases hresult
    obtain ⟨hq, hm, hb⟩ := processMove_frame hmove
    exact .of_mild h hq hm hb rfl rfl rfl rfl fun st hst => by cases hst
  | @processed _ r c₁ hmove hresult =>
    obtain ⟨hq, hm, hb⟩ := processMove_frame hmove
    have hlocal : LocalStep c e .processing (processReturned c₁ e r).2 (processReturned c₁ e r).1 :=
      processReturned_local h hq hm hb rfl rfl r
    rw [hresult] at hlocal
    exact hlocal
  | empty _ _ hresult =>
    cases hresult
    exact .of_mild h (.refl c) (.refl c) (.refl c) rfl rfl rfl rfl fun st hst => by cases hst
  | overflow _ _ hresult =>
    have hlocal : LocalStep c e .processing (processReturned c e (Errno.eoverflow, .none)).2
        (processReturned c e (Errno.eoverflow, .none)).1 :=
      processReturned_local h (.refl c) (.refl c) (.refl c) rfl rfl _
    rw [hresult] at hlocal
    exact hlocal
  | handshake new ret hresult =>
    obtain ⟨hq, hm, hb⟩ := socketCall_frame (S := fun x => x = e ∨ x ∈ Stage.handshaking.freeList) c
      _ (sslConnect_event c.sp new ret) (show (LogEntry.io e .sslHandshake).isQuiet = true from rfl) rfl
    have hlocal := processReturned_local h hq hm hb rfl rfl (sslConnect c.sp new ret).1
    rw [hresult] at hlocal
    exact hlocal
  | cancelled blockedOn _ hresult =>
    cases hresult
    exact setError_local h (.refl c) (.refl c) (.refl c) rfl rfl rfl rfl fun st hst => by cases hst
  | unproblematic blockedOn _ hresult =>
    cases hresult
    exact .of_mild h (.refl c) (.refl c) (.refl c) rfl rfl rfl rfl fun st hst => by cases hst
  | submit blockedOn epollErr hresult =>
    have hlocal : LocalStep c e (.submitting blockedOn) (submitToEngine c e blockedOn epollErr).2
        (submitToEngine c e blockedOn epollErr).1 :=
      submitToEngine_local h blockedOn epollErr rfl rfl
    rw [hresult] at hlocal
    exact hlocal
  | abort hresult =>
    cases hresult
    exact .of_mild h (socketEventAbort_quiet c e) (socketEventAbort_mild c e)
      (socketEventAbort_balanced c (.inl rfl)) rfl rfl rfl rfl fun st hst => by cases hst
  | judge hresult =>
    cases hresult
    exact connEventProcessEnd_local h (.refl c) (.refl c) (.refl c) rfl rfl (abortStatus_final _)

end Connio
