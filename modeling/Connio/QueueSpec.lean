import Connio.Queue
import Connio.QueueModel

/-!
# What the queue functions do

One lemma for each function of `Queue` that the later proofs cite instead of unfolding it.

* `Conn.queued`, `Conn.Wf` — the queue as a list, and the linked list that represents it;
* `view` — the abstract queue state of a conn;
* `cancelQueuedEvents_spec`, `connEventNext_some`, `connEventNext_none` — what moves between the queue,
  the free list and the slots;
* `Cancelled` — all that `cancelEventsInProgress` can do;
* `eventQueueAbort_first`, `eventQueueAbort_later`, `view_eventQueueAbort` — the two cases of an abort.
-/

namespace Connio

open Connio.Lib

/-! ### The abstraction -/

namespace Conn

/-- The events in the queue, oldest first. -/
def queued (c : Conn) : List EventId := c.transaction.queue.toList

/-- The queue is a well-formed doubly linked list. -/
def Wf (c : Conn) : Prop := c.transaction.queue.Represents c.queued

theorem Wf.of_represents {c : Conn} {l : List EventId} (h : c.transaction.queue.Represents l) :
    c.Wf ∧ c.queued = l := by
  have hl : c.queued = l := DList.toList_represents h
  exact ⟨by rw [Wf, hl]; exact h, hl⟩

end Conn

/-- The abstract queue state of a conn. -/
def view (c : Conn) : QueueState where
  queued := c.queued
  active := c.activeEvent
  problem := c.transaction.problem
  state := c.state
  threads := c.transaction.threads
  typeOf := c.typeOf
  log := c.log

/-- Writing an event without changing its type changes no type. -/
theorem typeOf_setEvent {c : Conn} {e : EventId} {ce : ConnEvent}
    (h : ce.type = (c.events e).type) : (c.setEvent e ce).typeOf = c.typeOf := by
  funext x
  show (Function.update c.events e ce x).type = (c.events x).type
  by_cases hx : x = e
  · rw [hx, Function.update_self, h]
  · rw [Function.update_of_ne hx]

theorem view_note (c : Conn) (x : LogEntry) : view (c.note x) = (view c).write x := rfl

/-! ### Cancelling -/

/-- A socket event, or the same one killed. -/
def SocketEvent.kill (se : SocketEvent) : SocketEvent := beginIf (sockEventKill se)

theorem SocketEvent.kill_kill (se : SocketEvent) : se.kill.kill = se.kill := by
  simp only [kill, beginIf, sockEventKill, SocketEvent.complete]
  cases se.inEngine <;> rfl

/-- **All that cancelling the active events can do:** mark events and kill socket events. -/
structure Cancelled (c c' : Conn) : Prop where
  rest : ∃ events event, c' = { c with events := events, sp.event := event }
  event : ∀ x, c'.events x = c.events x ∨
    c'.events x = { c.events x with error := Errno.ecanceled }
  socket : ∀ k, c'.sp.event.get k = c.sp.event.get k ∨
    c'.sp.event.get k = (c.sp.event.get k).kill

namespace Cancelled

theorem refl (c : Conn) : Cancelled c c :=
  ⟨⟨c.events, c.sp.event, rfl⟩, fun _ => .inl rfl, fun _ => .inl rfl⟩

theorem trans {c c' c'' : Conn} (h : Cancelled c c') (h' : Cancelled c' c'') : Cancelled c c'' := by
  refine ⟨?_, fun x => ?_, fun k => ?_⟩
  · obtain ⟨_, _, rfl⟩ := h.rest
    obtain ⟨evs, ses, rfl⟩ := h'.rest
    exact ⟨evs, ses, rfl⟩
  · rcases h.event x with h1 | h1 <;> rcases h'.event x with h2 | h2 <;> rw [h2, h1] <;> simp
  · rcases h.socket k with h1 | h1 <;> rcases h'.socket k with h2 | h2 <;> rw [h2, h1]
    · exact .inl rfl
    · exact .inr rfl
    · exact .inr rfl
    · exact .inr (SocketEvent.kill_kill _)

theorem typeOf {c c' : Conn} (h : Cancelled c c') : c'.typeOf = c.typeOf := by
  funext x
  show (c'.events x).type = (c.events x).type
  rcases h.event x with hx | hx <;> rw [hx]

theorem view {c c' : Conn} (h : Cancelled c c') : view c' = view c := by
  have ht := h.typeOf
  obtain ⟨_, _, rfl⟩ := h.rest
  simp only [Connio.view, ht]
  rfl

end Cancelled

theorem cancelActive_cancelled (c : Conn) (k : ConnEventClass) (e : EventId) :
    Cancelled c (cancelActive c k e) := by
  refine ⟨⟨_, _, rfl⟩, fun x => ?_, fun k' => ?_⟩
  · by_cases hx : x = e
    · exact .inr (by simp [cancelActive, Conn.setEvent, hx])
    · exact .inl (by simp [cancelActive, Conn.setEvent, hx])
  · show (c.sp.event.set k _).get k' = _ ∨ (c.sp.event.set k _).get k' = _
    rw [Slots.get_set]
    split
    · next h => exact .inr (by rw [h]; rfl)
    · exact .inl rfl

theorem cancelSlot_cancelled (c : Conn) (k : ConnEventClass) (current : Option EventId) :
    Cancelled c (cancelSlot c k current) := by
  unfold cancelSlot
  split
  · split
    · exact .refl c
    · exact cancelActive_cancelled c k _
  · exact .refl c

theorem cancelEventsInProgress_cancelled (c : Conn) (current : Option EventId) :
    Cancelled c (cancelEventsInProgress c current) := by
  have hboth : Cancelled c (cancelSlot (cancelSlot c .send current) .receive current) :=
    (cancelSlot_cancelled c .send current).trans (cancelSlot_cancelled _ .receive current)
  unfold cancelEventsInProgress
  split
  · split
    · exact .refl c
    · split
      · split
        · exact hboth
        · split
          · exact .refl c
          · exact cancelActive_cancelled c .connect _
      · exact hboth
  · exact .refl c

theorem discards_cons (e : EventId) (l : List EventId) (log : List LogEntry) :
    discards (e :: l) ++ log = discards l ++ (.discard e :: log) := by
  simp [discards]

theorem cancelQueuedEventsLoop_spec : ∀ {l : List EventId} {c : Conn},
    c.transaction.queue.Represents l →
    ∃ q : DList EventId, q.Represents [] ∧ cancelQueuedEventsLoop l.length c =
      { c with
        transaction.queue := q
        transaction.freeList := l.reverse ++ c.transaction.freeList
        log := discards l ++ c.log }
  | [], c, h => ⟨c.transaction.queue, h, rfl⟩
  | e :: l, c, h => by
    have hhead : c.transaction.queue.head = some e := h.head_eq
    have hq : (c.transaction.queue.remove e).Represents l := by
      have := DList.represents_remove h List.mem_cons_self
      rwa [List.erase_cons_head] at this
    obtain ⟨q, hq', heq⟩ := cancelQueuedEventsLoop_spec
      (c := (connEventFreeListAdd (eventQueueRemoveEvent c e) e).note (.discard e)) hq
    refine ⟨q, hq', ?_⟩
    simp only [List.length_cons, cancelQueuedEventsLoop, getNextEnqueuedEvent, hhead]
    rw [heq, discards_cons]
    simp [connEventFreeListAdd, eventQueueRemoveEvent, Conn.note]

/-- **The queue moves to the free list.** -/
theorem cancelQueuedEvents_spec {c : Conn} (h : c.Wf) :
    ∃ q : DList EventId, q.Represents [] ∧ cancelQueuedEvents c =
      { c with
        transaction.queue := q
        transaction.freeList := c.queued.reverse ++ c.transaction.freeList
        log := discards c.queued ++ c.log } := by
  unfold cancelQueuedEvents
  rw [h.count_eq]
  exact cancelQueuedEventsLoop_spec h

/-- A first problem empties the queue into the free list and marks the active events. -/
theorem eventQueueAbort_first {c : Conn} (h : c.Wf) (hp : c.transaction.problem = none)
    (current : Option EventId) (p : AsyncProblem) :
    ∃ q : DList EventId, q.Represents [] ∧ Cancelled
      { c with
        transaction.queue := q
        transaction.freeList := c.queued.reverse ++ c.transaction.freeList
        transaction.problem := some p
        log := discards c.queued ++ (.report p :: c.log) } (eventQueueAbort c current p) := by
  obtain ⟨q, hq, heq⟩ := cancelQueuedEvents_spec
    (c := { c with transaction.problem := some p }.note (.report p)) h
  refine ⟨q, hq, ?_⟩
  simp only [eventQueueAbort, setAsyncProblem, hp]
  rw [heq]
  exact cancelEventsInProgress_cancelled _ current

/-- A later problem is only reported. -/
theorem eventQueueAbort_later {c : Conn} (hp : c.transaction.problem ≠ none)
    (current : Option EventId) (p : AsyncProblem) :
    eventQueueAbort c current p = c.note (.report p) := by
  obtain ⟨q, hq⟩ := Option.ne_none_iff_exists'.mp hp
  simp [eventQueueAbort, setAsyncProblem, hq]

theorem view_eventQueueAbort {c : Conn} (h : c.Wf) (hp : c.transaction.problem = none)
    (current : Option EventId) (p : AsyncProblem) :
    view (eventQueueAbort c current p) = (view c).abort p := by
  obtain ⟨q, hq, hc⟩ := eventQueueAbort_first h hp current p
  rw [hc.view]
  have hl : q.toList = [] := DList.toList_represents hq
  simp only [view, Conn.queued, hl]
  rfl

/-! ### Starting -/

/-- Unlinking an event from the middle of the queue. -/
theorem represents_unlink {d : DList EventId} {a b : List EventId} {e : EventId}
    (h : d.Represents (a ++ e :: b)) : (d.remove e).Represents (a ++ b) := by
  have hea : e ∉ a := fun hea =>
    (List.nodup_append.mp h.nodup).2.2 e hea e List.mem_cons_self rfl
  have := DList.represents_remove h (x := e) (by simp)
  rwa [List.erase_append_right _ hea, List.erase_cons_head] at this

/-- What a search of the queue hands over. -/
theorem getNextEnqueuedBy_some {scan : ConnEventType → Scan} {c c' : Conn} {e : EventId}
    (h : c.Wf) (hs : getNextEnqueuedBy scan c = (some e, c')) :
    ∃ a b q, c.queued = a ++ e :: b ∧ (∀ y ∈ a, scan (c.typeOf y) = .skip) ∧
      scan (c.typeOf e) = .take ∧ q.Represents (a ++ b) ∧ c' = { c with transaction.queue := q } := by
  unfold getNextEnqueuedBy at hs
  rw [DList.search_represents h] at hs
  split at hs
  · next x hx =>
    cases hs
    obtain ⟨htake, a, b, hl, hskip⟩ := scanList_eq_some hx
    refine ⟨a, b, _, hl, hskip, htake, ?_, rfl⟩
    have hq : c.transaction.queue.Represents c.queued := h
    rw [hl] at hq
    exact represents_unlink hq
  · cases hs

theorem getNextEnqueuedBy_none {scan : ConnEventType → Scan} {c c' : Conn}
    (hs : getNextEnqueuedBy scan c = (none, c')) : c' = c := by
  unfold getNextEnqueuedBy at hs
  split at hs <;> cases hs
  rfl

/-- An event that `ConnEventNext` hands over. -/
theorem connEventNext_some {c c' : Conn} {e : EventId} (h : c.Wf)
    (hn : connEventNext c = (some e, c')) :
    ∃ a b q, c.queued = a ++ e :: b ∧ q.Represents (a ++ b) ∧
      c' = { c with transaction.queue := q } ∧ c.transaction.problem = none ∧
      c.activeEvent.connect = none ∧ c.activeEvent.get (c.classOf e) = none ∧
      (∀ y ∈ a, c.classOf y ≠ .connect ∧ c.classOf y ≠ c.classOf e ∧ c.classOf e ≠ .connect) ∧
      (c.classOf e = .connect → ∀ k, c.activeEvent.get k = none) := by
  unfold connEventNext at hn
  split at hn
  · cases hn
  next hp =>
  split at hn
  · cases hn
  next hhead =>
  split at hn
  · cases hn
  next hconn =>
  have hp' : c.transaction.problem = none := by simpa using hp
  have hconn' : c.activeEvent.connect = none := by simpa using hconn
  split at hn
  next hrecv =>
    split at hn
    · cases hn
    next hsend =>
    -- the receiving direction is busy, so the first send event is taken
    obtain ⟨a, b, q, hl, hskip, htake, hq, rfl⟩ := getNextEnqueuedBy_some h hn
    have hclass : c.classOf e = .send := by
      unfold sendScan at htake
      unfold Conn.classOf
      split at htake <;> simp_all
    refine ⟨a, b, q, hl, hq, rfl, hp', hconn', ?_, ?_, ?_⟩
    · rw [hclass]
      simpa [Slots.get] using hsend
    · intro y hy
      have := hskip y hy
      unfold sendScan at this
      have hy' : c.classOf y = .receive := by
        unfold Conn.classOf
        split at this <;> simp_all
      rw [hy', hclass]
      simp
    · intro hc
      rw [hclass] at hc
      cases hc
  next hrecv =>
    have hrecv' : c.activeEvent.receive = none := by simpa using hrecv
    split at hn
    next hsend =>
      -- the sending direction is busy, so the first receive event is taken
      obtain ⟨a, b, q, hl, hskip, htake, hq, rfl⟩ := getNextEnqueuedBy_some h hn
      have hclass : c.classOf e = .receive := by
        unfold receiveScan at htake
        unfold Conn.classOf
        split at htake <;> simp_all
      refine ⟨a, b, q, hl, hq, rfl, hp', hconn', ?_, ?_, ?_⟩
      · rw [hclass]
        exact hrecv'
      · intro y hy
        have := hskip y hy
        unfold receiveScan at this
        have hy' : c.classOf y = .send := by
          unfold Conn.classOf
          split at this <;> simp_all
        rw [hy', hclass]
        simp
      · intro hc
        rw [hclass] at hc
        cases hc
    next hsend =>
      -- nothing is active, so the head is taken
      have hsend' : c.activeEvent.send = none := by simpa using hsend
      have hfree : ∀ k, c.activeEvent.get k = none := by
        intro k
        cases k
        · exact hconn'
        · exact hrecv'
        · exact hsend'
      unfold getNextEnqueuedEvent at hn
      split at hn
      · next x hx =>
        cases hn
        obtain ⟨b, hl⟩ : ∃ b, c.queued = e :: b := by
          have hhd := h.head_eq
          rw [hx] at hhd
          exact List.head?_eq_some_iff.mp hhd.symm
        have hq : c.transaction.queue.Represents ([] ++ e :: b) := by
          have hwf : c.transaction.queue.Represents c.queued := h
          rwa [hl] at hwf
        exact ⟨[], b, _, hl, represents_unlink hq, rfl, hp', hconn', hfree _, by simp,
          fun _ => hfree⟩
      · cases hn

/-- When `ConnEventNext` finds nothing, there has been a problem, or nothing is queued, or an event is
active. -/
theorem connEventNext_none {c c' : Conn} (h : c.Wf) (hn : connEventNext c = (none, c')) :
    c' = c ∧ (c.transaction.problem ≠ none ∨ c.queued = [] ∨ ¬ ∀ k, c.activeEvent.get k = none) := by
  unfold connEventNext at hn
  split at hn
  next hp =>
    cases hn
    exact ⟨rfl, .inl (by intro hnone; simp [hnone] at hp)⟩
  split at hn
  next hhead =>
    cases hn
    exact ⟨rfl, .inr (.inl (by rw [h.head_eq] at hhead; simpa using hhead))⟩
  next hhead =>
  split at hn
  next hc =>
    cases hn
    refine ⟨rfl, .inr (.inr fun hall => ?_)⟩
    have := hall .connect
    simp_all [Slots.get]
  split at hn
  next hr =>
    have hbusy : ¬ ∀ k, c.activeEvent.get k = none := fun hall => by
      have := hall .receive
      simp_all [Slots.get]
    split at hn
    · cases hn
      exact ⟨rfl, .inr (.inr hbusy)⟩
    · exact ⟨getNextEnqueuedBy_none hn, .inr (.inr hbusy)⟩
  split at hn
  next hs =>
    have hbusy : ¬ ∀ k, c.activeEvent.get k = none := fun hall => by
      have := hall .send
      simp_all [Slots.get]
    exact ⟨getNextEnqueuedBy_none hn, .inr (.inr hbusy)⟩
  · unfold getNextEnqueuedEvent at hn
    split at hn
    · cases hn
    · next hnone => exact absurd hnone hhead

end Connio
