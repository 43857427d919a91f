import Connio.EngineInv

/-!
# What an abort reaches

`EventQueueAbort` marks the active events and kills the `SocketEvent`s of their slots, exactly.

* `Cancels` — the slots that `CancelEventsInProgress` acts on; `cancelEventsInProgress_kills`: it kills
  the `SocketEvent`s of these slots, marks their events, and leaves the others alone;
* `AbortHits` — the slots that an abort acts on: none, unless it reports the first problem;
* `AsyncSystem.aborts` — the steps that abort the queue; `asyncStep_aborts` — **PROVED**: what such a step
  leaves behind;
* `AbortReaches`, `AbortCovers`, `reachable_abortReaches` — **PROVED**: every event that waits in the
  engine is taken out exactly when the slot it waits in is one that the abort acts on.
-/

namespace Connio

open Connio.Lib

/-! ### Cancelling the active events -/

/-- **`CancelEventsInProgress` acts on slot `k`:** the slot is occupied by another event than the current
one; the connect slot is not occupied by a disconnect, the other two only count when no other event is in
the connect slot. -/
structure Cancels (c : Conn) (current : Option EventId) (k : ConnEventClass) : Prop where
  socket : c.sp.number ≠ none
  active : c.activeEvent.get k ≠ none
  other : c.activeEvent.get k ≠ current
  connect : k = .connect → ∀ e, c.activeEvent.connect = some e →
    c.typeOf e ≠ .disconnect ∧ c.typeOf e ≠ .sslDisconnect
  free : k ≠ .connect → c.activeEvent.connect = none ∨ c.activeEvent.connect = current

/-- `c'` is `c` with the `SocketEvent`s of the slots in `K` killed and the events in these slots
cancelled. -/
structure Kills (c c' : Conn) (K : ConnEventClass → Prop) : Prop where
  rest : Cancelled c c'
  killed : ∀ k, K k → c'.sp.event.get k = (c.sp.event.get k).kill
  kept : ∀ k, ¬ K k → c'.sp.event.get k = c.sp.event.get k
  cancelled : ∀ k e, K k → c.activeEvent.get k = some e → (c'.events e).error = Errno.ecanceled
  other : ∀ e, (∀ k, K k → c.activeEvent.get k ≠ some e) → c'.events e = c.events e

namespace Kills

variable {c c' c'' : Conn} {K K' : ConnEventClass → Prop}

theorem of_empty (c : Conn) (h : ∀ k, ¬ K k) : Kills c c K :=
  ⟨.refl c, fun k hk => absurd hk (h k), fun _ _ => rfl, fun k _ hk => absurd hk (h k), fun _ _ => rfl⟩

theorem congr (h : Kills c c' K) (heq : ∀ k, K k ↔ K' k) : Kills c c' K' :=
  ⟨h.rest, fun k hk => h.killed k ((heq k).mpr hk), fun k hk => h.kept k fun hK => hk ((heq k).mp hK),
    fun k e hk => h.cancelled k e ((heq k).mpr hk), fun e he => h.other e fun k hk => he k ((heq k).mp hk)⟩

/-- Two slots one after the other. -/
theorem trans (h : Kills c c' K) (h' : Kills c' c'' K') :
    Kills c c'' fun k => K k ∨ K' k := by
  have hactive : c'.activeEvent = c.activeEvent := h.rest.steady.active
  refine ⟨h.rest.trans h'.rest, fun k hk => ?_, fun k hk => ?_, fun k e hk he => ?_, fun e he => ?_⟩
  · by_cases h1 : K k <;> by_cases h2 : K' k
    · rw [h'.killed k h2, h.killed k h1, SocketEvent.kill_kill]
    · rw [h'.kept k h2, h.killed k h1]
    · rw [h'.killed k h2, h.kept k h1]
    · exact absurd hk (not_or.mpr ⟨h1, h2⟩)
  · obtain ⟨h1, h2⟩ := not_or.mp hk
    rw [h'.kept k h2, h.kept k h1]
  · rcases h'.rest.event e with h2 | h2
    · rcases hk with h1 | h1
      · rw [h2]
        exact h.cancelled k e h1 he
      · exact h'.cancelled k e h1 (hactive ▸ he)
    · rw [h2]
  · rw [h'.other e fun k hk => hactive ▸ he k (.inr hk), h.other e fun k hk => he k (.inl hk)]

end Kills

theorem cancelActive_kills {c : Conn} {k : ConnEventClass} {e : EventId}
    (h : c.activeEvent.get k = some e) : Kills c (cancelActive c k e) (· = k) := by
  refine ⟨cancelActive_cancelled c k e, ?_, fun k' hk => ?_, ?_, fun x hx => ?_⟩
  · rintro k rfl
    show (c.sp.event.set k _).get k = _
    rw [Slots.get_set_self]
    rfl
  · show (c.sp.event.set k _).get k' = _
    rw [Slots.get_set_of_ne _ hk]
  · rintro k x rfl hx
    have : x = e := Option.some.inj (hx.symm.trans h)
    simp [cancelActive, Conn.setEvent, this]
  · have hne : x ≠ e := by
      rintro rfl
      exact hx k rfl h
    simp [cancelActive, Conn.setEvent, hne]

theorem cancelSlot_kills (c : Conn) (k : ConnEventClass) (current : Option EventId) :
    Kills c (cancelSlot c k current)
      fun k' => k' = k ∧ c.activeEvent.get k ≠ none ∧ c.activeEvent.get k ≠ current := by
  unfold cancelSlot
  cases he : c.activeEvent.get k with
  | none => exact .of_empty c fun k' hk => hk.2.1 rfl
  | some e =>
    simp only []
    split
    next hc => exact .of_empty c fun k' hk => hk.2.2 hc
    next hc => exact (cancelActive_kills he).congr fun k' => ⟨fun h => ⟨h, by simp, hc⟩, And.left⟩

/-- **`CancelEventsInProgress`, exactly (proved).** -/
theorem cancelEventsInProgress_kills (c : Conn) (current : Option EventId) :
    Kills c (cancelEventsInProgress c current) (Cancels c current) := by
  -- the send slot and the receive slot
  have hboth : c.sp.number ≠ none →
      (c.activeEvent.connect = none ∨ c.activeEvent.connect = current) →
      Kills c (cancelSlot (cancelSlot c .send current) .receive current) (Cancels c current) := by
    intro hnum hfree
    have h1 := cancelSlot_kills c .send current
    have h2 := cancelSlot_kills (cancelSlot c .send current) .receive current
    have hactive : (cancelSlot c .send current).activeEvent = c.activeEvent := h1.rest.steady.active
    rw [hactive] at h2
    refine (h1.trans h2).congr fun k => ⟨?_, fun hk => ?_⟩
    · rintro (⟨rfl, h3, h4⟩ | ⟨rfl, h3, h4⟩) <;>
        exact ⟨hnum, h3, h4, fun h => absurd h (by simp), fun _ => hfree⟩
    · cases k with
      | connect =>
        rcases hfree with h3 | h3
        · exact absurd h3 hk.active
        · exact absurd h3 hk.other
      | receive => exact .inr ⟨rfl, hk.active, hk.other⟩
      | send => exact .inl ⟨rfl, hk.active, hk.other⟩
  unfold cancelEventsInProgress
  split
  · split
    next hnum => exact .of_empty c fun k hk => hk.socket hnum
    next hnum =>
      split
      next e he =>
        split
        next hc => exact hboth hnum (.inr (he.trans hc))
        next hc =>
          have honly : ∀ k, Cancels c current k → k = .connect := by
            intro k hk
            by_contra hne
            rcases hk.free hne with h | h
            · exact absurd (he.symm.trans h) (by simp)
            · exact hc (he.symm.trans h)
          split
          next ht =>
            refine .of_empty c fun k hk => ?_
            obtain ⟨h1, h2⟩ := hk.connect (honly k hk) e he
            rcases ht with ht | ht
            · exact h1 ht
            · exact h2 ht
          next ht =>
            refine (cancelActive_kills (k := .connect) he).congr fun k => ⟨?_, honly k⟩
            rintro rfl
            refine ⟨hnum, by simp [Slots.get, he], by simpa [Slots.get, he] using hc, fun _ x hx => ?_,
              fun h => absurd rfl h⟩
            rw [he] at hx
            cases hx
            exact not_or.mp ht
      next he => exact hboth hnum (.inl he)
  next hidle =>
    obtain ⟨h1, h2, h3⟩ := connEventsInProgress_eq_false.mp (by simpa using hidle)
    refine .of_empty c fun k hk => hk.active ?_
    cases k
    · exact h1
    · exact h2
    · exact h3

/-! ### Aborting the queue -/

/-- **An abort acts on slot `k`:** only the first problem of a transaction cancels anything. -/
def AbortHits (c : Conn) (current : Option EventId) (k : ConnEventClass) : Prop :=
  c.transaction.problem = none ∧ Cancels c current k

/-- **What an abort leaves behind** when the event lock is given back. -/
structure Aborted (c : Conn) (current : Option EventId) (c' : Conn) : Prop where
  problem : c'.transaction.problem ≠ none
  number : c'.sp.number = c.sp.number
  killed : ∀ k, AbortHits c current k → c'.sp.event.get k = (c.sp.event.get k).kill
  kept : ∀ k, ¬ AbortHits c current k → c'.sp.event.get k = c.sp.event.get k
  cancelled : ∀ k e, AbortHits c current k → c.activeEvent.get k = some e →
    (c'.events e).error = Errno.ecanceled
  other : ∀ k e, c.activeEvent.get k = some e → some e ≠ current →
    (∀ k, AbortHits c current k → c.activeEvent.get k ≠ some e) →
    (c'.events e).error = (c.events e).error
  active : ∀ k, c'.activeEvent.get k =
    if c.activeEvent.get k = current then none else c.activeEvent.get k

/-- What the rest of a hold of the event lock leaves alone: the problem, the socket, the slots, and the
errors of the active events. -/
structure Settled (c c' : Conn) : Prop where
  problem : c'.transaction.problem = c.transaction.problem
  socket : c'.sp = c.sp
  active : c'.activeEvent = c.activeEvent
  event : ∀ k e, c.activeEvent.get k = some e →
    (c'.events e).error = (c.events e).error ∧ c'.typeOf e = c.typeOf e

namespace Settled

theorem refl (c : Conn) : Settled c c := ⟨rfl, rfl, rfl, fun _ _ _ => ⟨rfl, rfl⟩⟩

theorem trans {c c' c'' : Conn} (h : Settled c c') (h' : Settled c' c'') : Settled c c'' := by
  refine ⟨h'.problem.trans h.problem, h'.socket.trans h.socket, h'.active.trans h.active,
    fun k e he => ?_⟩
  obtain ⟨h1, h2⟩ := h.event k e he
  obtain ⟨h3, h4⟩ := h'.event k e (h.active ▸ he)
  exact ⟨h3.trans h1, h4.trans h2⟩

end Settled

section Aborting

variable {c c' c'' : Conn} {current : Option EventId}

/-- The same slots are hit. -/
theorem Settled.abortHits (h : Settled c c') (current : Option EventId) (k : ConnEventClass) :
    AbortHits c' current k ↔ AbortHits c current k := by
  have hconnect : ∀ e, c.activeEvent.connect = some e → c'.typeOf e = c.typeOf e := fun e he =>
    (h.event .connect e he).2
  unfold AbortHits
  rw [h.problem]
  refine and_congr_right fun _ => ⟨fun hc => ?_, fun hc => ?_⟩
  · refine ⟨h.socket ▸ hc.socket, h.active ▸ hc.active, h.active ▸ hc.other, fun hk e he => ?_,
      h.active ▸ hc.free⟩
    have := hc.connect hk e (h.active ▸ he)
    rwa [hconnect e he] at this
  · refine ⟨h.socket ▸ hc.socket, h.active ▸ hc.active, h.active ▸ hc.other, fun hk e he => ?_,
      h.active ▸ hc.free⟩
    have he' : c.activeEvent.connect = some e := h.active ▸ he
    rw [hconnect e he']
    exact hc.connect hk e he'

/-- The abort comes after a change that it takes no notice of. -/
theorem Aborted.of_settled (h : Settled c c') (ha : Aborted c' current c'') :
    Aborted c current c'' := by
  refine ⟨ha.problem, ?_, fun k hk => ?_, fun k hk => ?_, fun k e hk he => ?_,
    fun k e he hne hmiss => ?_, fun k => ?_⟩
  · rw [ha.number, h.socket]
  · rw [ha.killed k ((h.abortHits current k).mpr hk), h.socket]
  · rw [ha.kept k fun hc => hk ((h.abortHits current k).mp hc), h.socket]
  · exact ha.cancelled k e ((h.abortHits current k).mpr hk) (h.active ▸ he)
  · rw [ha.other k e (h.active ▸ he) hne fun k hk => h.active ▸ hmiss k ((h.abortHits current k).mp hk)]
    exact (h.event k e he).1
  · rw [ha.active k, h.active]

/-- The abort is followed by a change that leaves its result alone. -/
theorem Aborted.settled (ha : Aborted c current c') (h : Settled c' c'') : Aborted c current c'' := by
  -- what is active and not the current event is still active
  have hstill : ∀ k e, c.activeEvent.get k = some e → some e ≠ current →
      c'.activeEvent.get k = some e := by
    intro k e he hne
    rw [ha.active k, he, if_neg hne]
  refine ⟨?_, ?_, fun k hk => ?_, fun k hk => ?_, fun k e hk he => ?_, fun k e he hne hmiss => ?_,
    fun k => ?_⟩
  · rw [h.problem]
    exact ha.problem
  · rw [h.socket, ha.number]
  · rw [h.socket, ha.killed k hk]
  · rw [h.socket, ha.kept k hk]
  · have hne : some e ≠ current := he ▸ hk.2.other
    rw [(h.event k e (hstill k e he hne)).1]
    exact ha.cancelled k e hk he
  · rw [(h.event k e (hstill k e he hne)).1]
    exact ha.other k e he hne hmiss
  · rw [h.active, ha.active k]

/-- **`EventQueueAbort` (proved),** called with a current event that is in no slot. -/
theorem eventQueueAbort_aborted (hwf : c.Wf) (hcurrent : ∀ k, c.activeEvent.get k = current →
    current = none) (p : AsyncProblem) : Aborted c current (eventQueueAbort c current p) := by
  have hactive : (eventQueueAbort c current p).activeEvent = c.activeEvent := by
    by_cases hp : c.transaction.problem = none
    · obtain ⟨_, _, hc⟩ := eventQueueAbort_first hwf hp current p
      exact hc.steady.active
    · rw [eventQueueAbort_later hp]
      rfl
  have hslot : ∀ k, (eventQueueAbort c current p).activeEvent.get k =
      if c.activeEvent.get k = current then none else c.activeEvent.get k := by
    intro k
    rw [hactive]
    split
    next heq => rw [heq, hcurrent k heq]
    · rfl
  by_cases hp : c.transaction.problem = none
  · -- the queue is emptied, and then the active events are cancelled
    obtain ⟨q, _, heq⟩ := cancelQueuedEvents_spec
      (c := { c with transaction.problem := some p }.note (.report p)) hwf
    have heq' : eventQueueAbort c current p = cancelEventsInProgress
        (cancelQueuedEvents ({ c with transaction.problem := some p }.note (.report p))) current := by
      simp only [eventQueueAbort, setAsyncProblem, hp]
    have hk := cancelEventsInProgress_kills
      (cancelQueuedEvents ({ c with transaction.problem := some p }.note (.report p))) current
    rw [← heq', heq] at hk
    have hhits : ∀ k, AbortHits c current k ↔ Cancels
        { c.note (.report p) with
          transaction.queue := q
          transaction.freeList := c.queued.reverse ++ c.transaction.freeList
          transaction.problem := some p
          log := discards c.queued ++ (.report p :: c.log) } current k := fun k =>
      ⟨fun h => ⟨h.2.socket, h.2.active, h.2.other, h.2.connect, h.2.free⟩,
        fun h => ⟨hp, ⟨h.socket, h.active, h.other, h.connect, h.free⟩⟩⟩
    refine ⟨eventQueueAbort_problem hwf current p, ?_, fun k hk' => hk.killed k ((hhits k).mp hk'),
      fun k hk' => hk.kept k fun h => hk' ((hhits k).mpr h),
      fun k e hk' he => hk.cancelled k e ((hhits k).mp hk') he, fun k e he _ hmiss => ?_, hslot⟩
    · obtain ⟨_, _, hrest⟩ := hk.rest.rest
      rw [hrest]
      rfl
    · rw [hk.other e fun k' hk' => hmiss k' ((hhits k').mpr hk')]
      rfl
  · have hmiss : ∀ k, ¬ AbortHits c current k := fun k hk => hp hk.1
    refine ⟨eventQueueAbort_problem hwf current p, ?_, fun k hk => absurd hk (hmiss k), fun k _ => ?_,
      fun k _ hk => absurd hk (hmiss k), fun k e _ _ _ => ?_, hslot⟩ <;>
      rw [eventQueueAbort_later hp] <;> rfl

/-- **`e` has left its slot,** and nothing else that an abort takes notice of has changed. -/
structure Vacated (c : Conn) (e : EventId) (c' : Conn) : Prop where
  problem : c'.transaction.problem = c.transaction.problem
  number : c'.sp.number = c.sp.number
  socket : c'.sp.event = c.sp.event
  active : ∀ k, c'.activeEvent.get k =
    if c.activeEvent.get k = some e then none else c.activeEvent.get k
  event : ∀ x, x ≠ e → c'.events x = c.events x

theorem Vacated.abortHits {e : EventId} (h : Vacated c e c') (k : ConnEventClass) :
    AbortHits c' (some e) k ↔ AbortHits c (some e) k := by
  have hactive : ∀ k x, x ≠ e → (c'.activeEvent.get k = some x ↔ c.activeEvent.get k = some x) := by
    intro k x hx
    rw [h.active k]
    split
    next heq => simp [heq, Ne.symm hx]
    · rfl
  have hfree : (c'.activeEvent.get .connect = none ∨ c'.activeEvent.get .connect = some e) ↔
      (c.activeEvent.get .connect = none ∨ c.activeEvent.get .connect = some e) := by
    rw [h.active .connect]
    split <;> simp_all
  unfold AbortHits
  rw [h.problem]
  refine and_congr_right fun _ => ⟨fun hc => ?_, fun hc => ?_⟩
  · have hne : c.activeEvent.get k ≠ none ∧ c.activeEvent.get k ≠ some e := by
      have := hc.active
      rw [h.active k] at this
      split at this <;> simp_all
    refine ⟨h.number ▸ hc.socket, hne.1, hne.2, fun hk x hx => ?_, fun hk => hfree.mp (hc.free hk)⟩
    subst hk
    have hxe : x ≠ e := by
      rintro rfl
      exact hne.2 hx
    have := hc.connect rfl x ((hactive .connect x hxe).mpr hx)
    rwa [Conn.typeOf, h.event x hxe] at this
  · have hsame : c'.activeEvent.get k = c.activeEvent.get k := by
      rw [h.active k, if_neg hc.other]
    refine ⟨h.number ▸ hc.socket, hsame ▸ hc.active, hsame ▸ hc.other, fun hk x hx => ?_,
      fun hk => hfree.mpr (hc.free hk)⟩
    subst hk
    have hx' : c.activeEvent.get .connect = some x := hsame ▸ hx
    have hxe : x ≠ e := by
      rintro rfl
      exact hc.other hx'
    rw [Conn.typeOf, h.event x hxe]
    exact hc.connect rfl x hx'

/-- The abort comes after its current event has left its slot. -/
theorem Aborted.of_vacated {e : EventId} (h : Vacated c e c') (ha : Aborted c' (some e) c'') :
    Aborted c (some e) c'' := by
  have hactive : ∀ k x, x ≠ e → c.activeEvent.get k = some x → c'.activeEvent.get k = some x := by
    intro k x hx hk
    rw [h.active k, hk, if_neg (by simpa using hx)]
  refine ⟨ha.problem, ha.number.trans h.number, fun k hk => ?_, fun k hk => ?_, fun k x hk hx => ?_,
    fun k x hx hne hmiss => ?_, fun k => ?_⟩
  · rw [ha.killed k ((h.abortHits k).mpr hk), h.socket]
  · rw [ha.kept k fun hc => hk ((h.abortHits k).mp hc), h.socket]
  · have hxe : x ≠ e := by
      rintro rfl
      exact hk.2.other hx
    exact ha.cancelled k x ((h.abortHits k).mpr hk) (hactive k x hxe hx)
  · have hxe : x ≠ e := fun heq => hne (heq ▸ rfl)
    rw [ha.other k x (hactive k x hxe hx) hne fun k' hk' hx' => ?_, h.event x hxe]
    have := hmiss k' ((h.abortHits k').mp hk')
    rw [h.active k'] at hx'
    split at hx'
    · cases hx'
    · exact this hx'
  · rw [ha.active k, h.active k]
    split <;> simp_all

end Aborting

/-! ### The rest of the hold -/

section Settling

variable {c : Conn} {e : EventId}

theorem note_settled (c : Conn) (x : LogEntry) : Settled c (c.note x) :=
  ⟨rfl, rfl, rfl, fun _ _ _ => ⟨rfl, rfl⟩⟩

theorem asyncClientEnter_settled (c : Conn) : Settled c (asyncClientEnter c) := by
  unfold asyncClientEnter connChangeState asyncQueueStatusInit
  split
  · split <;> exact ⟨rfl, rfl, rfl, fun _ _ _ => ⟨rfl, rfl⟩⟩
  · exact .refl c

theorem bufferedSendDataGet_settled (c : Conn) : Settled c (bufferedSendDataGet c).2 := by
  unfold bufferedSendDataGet
  split <;> exact ⟨rfl, rfl, rfl, fun _ _ _ => ⟨rfl, rfl⟩⟩

theorem sslDisconnectEventNeeded_settled (c : Conn) (e : EventId) :
    Settled c (sslDisconnectEventNeeded c e).2 := by
  unfold sslDisconnectEventNeeded
  split
  · split <;> exact ⟨rfl, rfl, rfl, fun _ _ _ => ⟨rfl, rfl⟩⟩
  all_goals exact ⟨rfl, rfl, rfl, fun _ _ _ => ⟨rfl, rfl⟩⟩

/-- Queueing changes the status of the event only. -/
theorem eventEngineQueueAdd_settled
    (h : c.transaction.problem ≠ none ∨ (c.typeOf e).isShutdown = true) :
    Settled c (eventEngineQueueAdd c e) := by
  have happend : Settled c (eventQueueAppendEvent c e) := by
    refine ⟨rfl, rfl, rfl, fun k x _ => ?_⟩
    by_cases hx : x = e <;> simp [eventQueueAppendEvent, Conn.setEvent, Conn.note, Conn.typeOf, hx]
  unfold eventEngineQueueAdd
  split
  next hp =>
    split
    · exact happend
    · rw [if_pos (h.resolve_left fun hne => hne hp)]
      exact happend
  · exact ⟨rfl, rfl, rfl, fun _ _ _ => ⟨rfl, rfl⟩⟩

/-- An event that `EventEnqueue` inserts, or the failure to allocate it after a problem. -/
theorem insertEvent_settled {newEvent : Option (EventId × ConnEvent)}
    (hsome : ∀ f ce, newEvent = some (f, ce) →
      (∀ k, c.activeEvent.get k ≠ some f) ∧ ce.type.isShutdown = true)
    (hnone : newEvent = none → c.transaction.problem ≠ none) (source : CodeSource) :
    Settled c (insertEvent c newEvent source) := by
  match newEvent, hsome, hnone with
  | none, _, hnone =>
    simp only [insertEvent]
    rw [eventQueueAbort_later (hnone rfl)]
    exact note_settled c _
  | some (f, ce), hsome, _ =>
    obtain ⟨hfree, htype⟩ := hsome f ce rfl
    have hset : Settled c (((c.setEvent f { ce with inserted := true }).note (.alloc f)).note
        (.accept f)) := by
      refine ⟨rfl, rfl, rfl, fun k x hx => ?_⟩
      have hne : x ≠ f := by
        rintro rfl
        exact hfree k hx
      simp [Conn.setEvent, Conn.note, Conn.typeOf, hne]
    refine hset.trans (eventEngineQueueAdd_settled (.inr ?_))
    simpa [Conn.setEvent, Conn.note, Conn.typeOf] using htype

theorem insertFlush_settled {alloc : Option EventId}
    (hsome : ∀ f, alloc = some f → ∀ k, c.activeEvent.get k ≠ some f)
    (hnone : alloc = none → c.transaction.problem ≠ none ∨ ¬ FlushNeeded c e)
    (source : CodeSource) : Settled c (insertFlush c e alloc source) := by
  have hbuf := bufferedSendDataGet_settled c
  unfold insertFlush
  split
  · exact .refl c
  next hclass =>
  split
  next heq =>
    rw [heq] at hbuf
    exact hbuf
  next heq =>
    rw [heq] at hbuf
    refine hbuf.trans (insertEvent_settled (fun f ce hf => ?_) (fun hn => ?_) source)
    · obtain ⟨f', hf', heq'⟩ := Option.map_eq_some_iff.mp hf
      cases heq'
      exact ⟨fun k => hbuf.active ▸ hsome f hf' k, rfl⟩
    · rw [hbuf.problem]
      refine (hnone (Option.map_eq_none_iff.mp hn)).resolve_right fun hneed => hneed ?_
      exact ⟨hclass, by rw [heq]⟩

theorem insertSslDisconnect_settled {alloc : Option EventId}
    (hsome : ∀ f, alloc = some f → ∀ k, c.activeEvent.get k ≠ some f)
    (hnone : alloc = none →
      c.transaction.problem ≠ none ∨ (sslDisconnectEventNeeded c e).1 = false)
    (source : CodeSource) : Settled c (insertSslDisconnect c e alloc source) := by
  have hneed := sslDisconnectEventNeeded_settled c e
  unfold insertSslDisconnect
  split
  next heq =>
    rw [heq] at hneed
    exact hneed
  next heq =>
    rw [heq] at hneed
    refine hneed.trans (insertEvent_settled (fun f ce hf => ?_) (fun hn => ?_) source)
    · obtain ⟨f', hf', heq'⟩ := Option.map_eq_some_iff.mp hf
      cases heq'
      exact ⟨fun k => hneed.active ▸ hsome f hf' k, rfl⟩
    · rw [hneed.problem]
      refine (hnone (Option.map_eq_none_iff.mp hn)).resolve_right fun hfalse => ?_
      rw [heq] at hfalse
      cases hfalse

/-- After a problem a thread inside `ConnEventsProcess` can only leave. -/
theorem connEventsProcessLoop_settled (hp : c.transaction.problem ≠ none) :
    (∃ stillWorking, (connEventsProcessLoop c none).1 = .leave stillWorking) ∧
      Settled c (connEventsProcessLoop c none).2 := by
  have hnext : connEventNext c = (none, c) := by
    obtain ⟨p, hp'⟩ := Option.ne_none_iff_exists'.mp hp
    simp [connEventNext, hp']
  simp only [connEventsProcessLoop, hnext]
  refine ⟨⟨_, rfl⟩, ?_⟩
  unfold connEventsProcessLeave
  simp only []
  split
  · exact ⟨rfl, rfl, rfl, fun _ _ _ => ⟨rfl, rfl⟩⟩
  split
  · exact ⟨rfl, rfl, rfl, fun _ _ _ => ⟨rfl, rfl⟩⟩
  split
  · exact ⟨rfl, rfl, rfl, fun _ _ _ => ⟨rfl, rfl⟩⟩
  split <;> exact ⟨rfl, rfl, rfl, fun _ _ _ => ⟨rfl, rfl⟩⟩

theorem connEventsProcess_settled (hp : c.transaction.problem ≠ none) :
    (∃ stillWorking, (connEventsProcess c none).1 = .leave stillWorking) ∧
      Settled c (connEventsProcess c none).2 := by
  have henter : Settled c
      ({ c with transaction.threads := c.transaction.threads + 1 }.note .enter) :=
    ⟨rfl, rfl, rfl, fun _ _ _ => ⟨rfl, rfl⟩⟩
  obtain ⟨hleave, hs⟩ := connEventsProcessLoop_settled
    (c := { c with transaction.threads := c.transaction.threads + 1 }.note .enter) hp
  exact ⟨hleave, henter.trans hs⟩

end Settling

/-! ### The steps that abort -/

/-- `EventEnqueue` has to insert an SSL disconnect in front of `e`. -/
def SslDisconnectNeeded (c : Conn) (e : EventId) : Prop :=
  c.typeOf e = .disconnect ∧ (asyncClientEnter c).transaction.sslEnabled = true

instance (c : Conn) (e : EventId) : Decidable (SslDisconnectNeeded c e) :=
  inferInstanceAs (Decidable (_ ∧ _))

/-- The results for which `ConnEventsProcess` aborts the queue. -/
def ConnEventStatus.aborts : ConnEventStatus → Bool
  | .timedOut | .failed | .killed => true
  | _ => false

/-- `ConnEventsProcess` aborts the queue when it gets `e` back with `status`. -/
def AbortsQueue (c : Conn) (e : EventId) (status : ConnEventStatus) : Prop :=
  c.transaction.problem = none ∧ (status.aborts = true ∨
    status = .complete ∧ c.shuttingDown = true ∧ (c.typeOf e).isShutdown = false)

instance (c : Conn) (e : EventId) (status : ConnEventStatus) : Decidable (AbortsQueue c e status) :=
  inferInstanceAs (Decidable (_ ∧ _))

/-- **The `currentConnEvent` of the `EventQueueAbort` that a step calls;** `none` when it calls none. -/
def AsyncSystem.aborts (s : AsyncSystem) : AsyncAction → Option (Option EventId)
  | .kill _ =>
    match s.conn.state with
    | .asynchronousEngineComplete | .asynchronousEngine | .asynchronousClient => some none
    | _ => none
  | .handleAbort _ =>
    match s.conn.state with
    | .asynchronousEngine | .asynchronousClient => some none
    | _ => none
  | .writeAbort _ => some none
  | .enqueueFailure _ _ => if queueingPermitted s.conn then some none else none
  | .enqueue (some e) allocs _ =>
    if queueingPermitted s.conn = true ∧ (FlushNeeded s.conn e ∧ allocs.flush = none ∨
        SslDisconnectNeeded s.conn e ∧ allocs.sslDisconnect = none) then some none
    else none
  | .relock w =>
    match w.stage with
    | .returned status => if AbortsQueue s.conn w.event status then some (some w.event) else none
    | _ => none
  | _ => none

/-- **What a step that aborts leaves behind.** -/
structure AbortStep (s : AsyncSystem) (current : Option EventId) (s' : AsyncSystem) : Prop where
  conn : Aborted s.conn current s'.conn
  workers : ∀ w, some w.event ≠ current → (w ∈ s'.workers ↔ w ∈ s.workers)
  callbacks : s'.callbacks = s.callbacks

section Steps

variable {s : AsyncSystem}

/-- A thread that leaves `ConnEventsProcess`. -/
theorem AsyncSystem.outcome_leave {r : Outcome × Conn} {b : Bool} (h : r.1 = .leave b) :
    s.outcome r = { s with
      conn := r.2
      completions := if b then s.completions else .starting :: s.completions } := by
  unfold AsyncSystem.outcome
  rw [h]
  cases b <;> rfl

/-- An abort by the consumer. -/
theorem eventQueueAbort_none (hwf : s.conn.Wf) (p : AsyncProblem) :
    Aborted s.conn none (eventQueueAbort s.conn none p) :=
  eventQueueAbort_aborted hwf (fun _ _ => rfl) p

/-- There is no memory for the flush. -/
theorem insertFlush_aborted {c : Conn} {e : EventId} (hwf : c.Wf) (h : FlushNeeded c e)
    (source : CodeSource) : Aborted c none (insertFlush c e none source) := by
  obtain ⟨hclass, hdata⟩ := h
  have hbuf := bufferedSendDataGet_settled c
  obtain ⟨hwf', _⟩ := bufferedSendDataGet_effect (P := True) hwf
  unfold insertFlush
  rw [if_neg hclass]
  split
  next heq =>
    rw [heq] at hdata
    cases hdata
  next heq =>
    rw [heq] at hbuf hwf'
    exact .of_settled hbuf (eventQueueAbort_aborted hwf'.wf (fun _ _ => rfl) _)

/-- There is no memory for the SSL disconnect. -/
theorem insertSslDisconnect_aborted {c : Conn} {e : EventId} (hwf : c.Wf)
    (ht : c.typeOf e = .disconnect) (hssl : c.transaction.sslEnabled = true) (source : CodeSource) :
    Aborted c none (insertSslDisconnect c e none source) := by
  have hneed : sslDisconnectEventNeeded c e =
      (true, { c with transaction.sslEnabled := false }) := by
    simp only [sslDisconnectEventNeeded, ht, hssl, if_true]
  have hs := sslDisconnectEventNeeded_settled c e
  obtain ⟨hwf', _⟩ := sslDisconnectEventNeeded_effect (P := True) (e := e) hwf
  unfold insertSslDisconnect
  rw [hneed] at hs hwf' ⊢
  exact .of_settled hs (eventQueueAbort_aborted hwf'.wf (fun _ _ => rfl) _)

theorem eventEngineQueueAdd_sslEnabled (c : Conn) (e : EventId) :
    (eventEngineQueueAdd c e).transaction.sslEnabled = c.transaction.sslEnabled := by
  unfold eventEngineQueueAdd setAsyncProblem
  repeat' split
  all_goals rfl

/-- An inserted flush says nothing about SSL. -/
theorem insertFlush_sslEnabled {c : Conn} {e : EventId} {alloc : Option EventId}
    (h : ¬ (FlushNeeded c e ∧ alloc = none)) (source : CodeSource) :
    (insertFlush c e alloc source).transaction.sslEnabled = c.transaction.sslEnabled := by
  have hbuf := congrArg AsyncTransaction.sslEnabled (bufferedSendDataGet_transaction c)
  unfold insertFlush
  split
  · rfl
  next hclass =>
  split
  next heq =>
    rw [heq] at hbuf
    exact hbuf
  next heq =>
    rw [heq] at hbuf
    cases alloc with
    | none => exact absurd ⟨⟨hclass, by rw [heq]⟩, rfl⟩ h
    | some f =>
      simp only [Option.map_some, insertEvent]
      rw [eventEngineQueueAdd_sslEnabled]
      exact hbuf

/-- `EventEnqueue` aborts when it cannot insert an event. -/
theorem enqueueEvents_aborted {c : Conn} {e : EventId} {allocs : Allocs} (hwf : c.Wf)
    (hinv : QueueInv (view c)) (hstate : c.state = .asynchronousClient)
    (halloc : e ∈ allocated c.log) (hnew : allocs.Fresh c) (source : CodeSource)
    (h : FlushNeeded c e ∧ allocs.flush = none ∨
      (c.typeOf e = .disconnect ∧ c.transaction.sslEnabled = true) ∧ allocs.sslDisconnect = none) :
    Aborted c none (enqueueEvents c e allocs source) := by
  -- a new event is in no slot
  have hfree : ∀ f, f ∉ allocated c.log → ∀ k, c.activeEvent.get k ≠ some f := fun f hf k hk =>
    hf (hinv.slot.slot_allocated k f hk)
  obtain ⟨h1, hs1⟩ := insertFlush_effect (P := True) (e := e) hwf hinv hstate hnew.flush source
  have hd : ∀ d, allocs.sslDisconnect = some d →
      ∀ k, (insertFlush c e allocs.flush source).activeEvent.get k ≠ some d := by
    intro d hd k
    rw [hs1.active]
    exact hfree d (hnew.sslDisconnect d hd) k
  have hlast : ∀ {c' : Conn}, c'.transaction.problem ≠ none →
      Settled c' (eventEngineQueueAdd (c'.note (.accept e)) e) := fun hp =>
    (note_settled _ _).trans (eventEngineQueueAdd_settled (.inl hp))
  unfold enqueueEvents
  by_cases hA : FlushNeeded c e ∧ allocs.flush = none
  · have ha : Aborted c none (insertFlush c e allocs.flush source) := by
      rw [hA.2]
      exact insertFlush_aborted hwf hA.1 source
    have ha' := ha.settled (insertSslDisconnect_settled (e := e) hd (fun _ => .inl ha.problem) source)
    exact ha'.settled (hlast ha'.problem)
  · obtain ⟨⟨ht, hssl⟩, hnone⟩ := h.resolve_left hA
    have hs : Settled c (insertFlush c e allocs.flush source) :=
      insertFlush_settled (fun f hf => hfree f (hnew.flush f hf))
        (fun hn => .inr fun hneed => hA ⟨hneed, hn⟩) source
    have ha : Aborted c none
        (insertSslDisconnect (insertFlush c e allocs.flush source) e allocs.sslDisconnect source) := by
      rw [hnone]
      refine .of_settled hs (insertSslDisconnect_aborted h1.wf ?_ ?_ source)
      · rw [h1.typeOf e halloc]
        exact ht
      · rw [insertFlush_sslEnabled hA]
        exact hssl
    exact ha.settled (hlast ha.problem)

theorem cancelEvent_number (c : Conn) (e : EventId) :
    (cancelEvent c e).sp.number = c.sp.number := by
  simp only [cancelEvent]
  split <;> rfl

/-- **`ConnEventsProcess` aborts when it gets an event back (proved).** -/
theorem connEventsProcessResult_aborted {c : Conn} {e : EventId} {st : ConnEventStatus} (hwf : c.Wf)
    (hinv : QueueInv (view c)) (hslot : c.activeEvent.get (c.classOf e) = some e)
    (hstatus : (c.events e).status = st) (h : AbortsQueue c e st) :
    Aborted c (some e) (connEventsProcessResult c e) := by
  obtain ⟨hp, hwhy⟩ := h
  -- `e` leaves its slot, and only that one
  have hvacated : Vacated c e (captureStats
      ((connEventInProgressClear c e).note (.leave e (c.events e).status (c.events e).error
        (c.events e).source)) e) := by
    have hactive : ∀ k, (c.activeEvent.set (c.classOf e) none).get k =
        if c.activeEvent.get k = some e then none else c.activeEvent.get k := by
      intro k
      rw [Slots.get_set]
      by_cases hk : k = c.classOf e
      · rw [if_pos hk, if_pos (by rw [hk]; exact hslot)]
      · have hne : c.activeEvent.get k ≠ some e := fun heq =>
          hk (hinv.slot.slot_class k e heq).symm
        rw [if_neg hk, if_neg hne]
    unfold captureStats
    split <;> exact ⟨rfl, rfl, rfl, hactive, fun _ _ => rfl⟩
  have habort : ∀ {c' : Conn}, Vacated c e c' → c'.Wf → ∀ p,
      Aborted c (some e) (eventQueueAbort c' (some e) p) := by
    intro c' hv hwf' p
    refine .of_vacated hv (eventQueueAbort_aborted hwf' (fun k hk => ?_) p)
    rw [hv.active k] at hk
    split at hk
    · cases hk
    next hne => exact absurd hk hne
  obtain ⟨_, hsteady, hev, _, hwf₂⟩ := captureStats_frame
    ((connEventInProgressClear c e).note (.leave e (c.events e).status (c.events e).error
      (c.events e).source)) e
  have hwf₂ := (hwf₂ hwf).wf
  unfold connEventsProcessResult
  simp only []
  generalize captureStats ((connEventInProgressClear c e).note (.leave e (c.events e).status
    (c.events e).error (c.events e).source)) e = c₂ at hvacated hev hwf₂ hsteady ⊢
  have hev : c₂.events e = c.events e := congrFun hev e
  have hshutdown : c₂.shuttingDown = c.shuttingDown := hsteady.shuttingDown
  suffices h : Aborted c (some e) (handleErrors c₂ e) from
    h.settled ⟨rfl, rfl, rfl, fun _ _ _ => ⟨rfl, rfl⟩⟩
  have hp₂ : c₂.transaction.problem.isSome = false := by
    rw [hvacated.problem, hp]
    rfl
  unfold handleErrors
  simp only [hp₂, hev, hstatus, Bool.false_eq_true, if_false]
  rcases hwhy with hfail | ⟨rfl, hsh, ht⟩
  · rw [if_pos]
    · exact habort hvacated hwf₂ _
    · cases st <;> simp_all [ConnEventStatus.aborts]
  · rw [if_neg (by simp), if_neg (by simp), if_pos ⟨hshutdown.trans hsh, ht⟩]
    -- `CancelEvent` marks `e` only
    have hnumber := (cancelEvent_number c₂ e).trans hvacated.number
    obtain ⟨sp, hsp, heq⟩ := cancelEvent_eq c₂ e
    have hv : Vacated c e (cancelEvent c₂ e) := by
      refine ⟨?_, hnumber, ?_, ?_, fun x hx => ?_⟩ <;> rw [heq]
      · exact hvacated.problem
      · exact hsp.trans hvacated.socket
      · exact hvacated.active
      · rw [← hvacated.event x hx]
        exact Function.update_of_ne hx _ _
    exact habort hv (heq ▸ hwf₂) _

/-- **A step that aborts (proved).** -/
theorem asyncStep_aborts {s' : AsyncSystem} {a : AsyncAction} {current : Option EventId}
    (hinv : AsyncInv s) (ha : s.aborts a = some current) (h : asyncStep s a = some s') :
    AbortStep s current s' := by
  have hconn : ∀ c', Aborted s.conn none c' → AbortStep s none { s with conn := c' } := fun c' h =>
    ⟨h, fun _ _ => .rfl, rfl⟩
  cases a with
  | kill source =>
    cases h
    simp only [AsyncSystem.aborts] at ha
    split at ha <;> cases ha
    all_goals
      next hst =>
        refine hconn _ ?_
        simp only [connKillEx, hst]
        exact eventQueueAbort_none hinv.wf _
  | handleAbort source =>
    cases h
    simp only [AsyncSystem.aborts] at ha
    split at ha <;> cases ha
    all_goals
      next hst =>
        refine hconn _ ?_
        simp only [connHandleConnectionsAbort, hst]
        exact eventQueueAbort_none hinv.wf _
  | writeAbort source =>
    cases h
    cases ha
    exact hconn _ (eventQueueAbort_none hinv.wf _)
  | enqueueFailure errno source =>
    cases h
    simp only [AsyncSystem.aborts] at ha
    split at ha <;> cases ha
    next hq =>
      refine hconn _ ?_
      simp only [eventEnqueueFailure, hq, if_true]
      obtain ⟨hlock, _⟩ := asyncClientEnter_effect (P := True) hinv.wf hq
      exact .of_settled (asyncClientEnter_settled _)
        (eventQueueAbort_aborted hlock.wf (fun _ _ => rfl) _)
  | relock w =>
    simp only [AsyncSystem.aborts] at ha
    split at ha
    next st hst =>
      split at ha <;> cases ha
      next hwhy =>
      simp only [asyncStep, hst] at h
      split at h <;> cases h
      next hw =>
      have hne : st ≠ .inProgress := by
        rintro rfl
        rcases hwhy.2 with h | ⟨h, _⟩ <;> cases h
      have hh : w.stage.holding = true := by
        rw [hst]
        cases st <;> first | rfl | exact absurd rfl hne
      have hstatus := ((hinv.returned w hw st hst).resolve_left hne).2
      have ha := connEventsProcessResult_aborted hinv.wf hinv.queue (hinv.slot_of_worker hw hh)
        hstatus hwhy
      obtain ⟨⟨b, hleave⟩, hs⟩ := connEventsProcessLoop_settled ha.problem
      have hrelock : connEventsProcessRelock s.conn w.event st =
          connEventsProcessLoop (connEventsProcessResult s.conn w.event) none := if_neg hne
      rw [hrelock, AsyncSystem.outcome_leave hleave]
      refine ⟨ha.settled hs, fun w' hw' => ?_, ?_⟩
      · have hne' : w' ≠ w := fun h => hw' (h ▸ rfl)
        cases b <;> exact List.mem_erase_of_ne hne'
      · cases b <;> rfl
    · cases ha
  | enqueue connEvent allocs source =>
    cases connEvent with
    | none => cases ha
    | some e =>
      simp only [AsyncSystem.aborts] at ha
      split at ha <;> cases ha
      next hwhy =>
      obtain ⟨hperm, hwhy⟩ := hwhy
      simp only [asyncStep] at h
      split at h <;> cases h
      next hok =>
      have halloc := hinv.caller_allocated (List.mem_append_left _ (hok.1 e rfl))
      have hnew := Allocs.fresh_iff hok.2
      obtain ⟨h1, hstate, _, _, hlog⟩ := asyncClientEnter_effect (P := True) hinv.wf hperm
      have ht : (asyncClientEnter s.conn).typeOf e = s.conn.typeOf e := by
        rw [Conn.typeOf, (asyncClientEnter_frame s.conn).2.2.1]
        rfl
      have ha : Aborted s.conn none (enqueueEvents (asyncClientEnter s.conn) e allocs source) := by
        refine .of_settled (asyncClientEnter_settled _) (enqueueEvents_aborted h1.wf
          (h1.inv hinv.queue) hstate (hlog ▸ halloc)
          ⟨hlog ▸ hnew.flush, hlog ▸ hnew.sslDisconnect, hnew.ne⟩ source ?_)
        rwa [FlushNeeded.asyncClientEnter_iff, ht]
      have heq : eventEnqueue s.conn (some e) allocs source =
          some (if (enqueueEvents (asyncClientEnter s.conn) e allocs source).waitForSubmit then
            (.leave true, enqueueEvents (asyncClientEnter s.conn) e allocs source)
          else connEventsProcess (enqueueEvents (asyncClientEnter s.conn) e allocs source) none) := by
        simp only [eventEnqueue, hperm, if_true, Option.elim_some]
        by_cases hw : (enqueueEvents (asyncClientEnter s.conn) e allocs source).waitForSubmit = true
        · simp only [hw, if_true]
        · simp only [hw, if_false, Bool.false_eq_true]
      simp only [AsyncSystem.enqueue, heq]
      split
      · exact ⟨ha, fun _ _ => .rfl, rfl⟩
      · obtain ⟨⟨b, hleave⟩, hs⟩ := connEventsProcess_settled ha.problem
        rw [AsyncSystem.outcome_leave hleave]
        cases b <;> exact ⟨ha.settled hs, fun _ _ => .rfl, rfl⟩
  | _ => cases ha

end Steps

/-! ### The events that wait in the engine -/

section Waiting

variable {c : Conn} {current : Option EventId} {k : ConnEventClass} {e : EventId}

/-- **`e` waits in the engine,** in the `SocketEvent` of slot `k`, and an abort is meant to reach it. -/
structure AwaitsAbort (c : Conn) (current : Option EventId) (k : ConnEventClass) (e : EventId) :
    Prop where
  arg : (c.sp.event.get k).arg = some e
  inEngine : (c.sp.event.get k).inEngine = true
  other : some e ≠ current
  type : c.typeOf e ≠ .disconnect ∧ c.typeOf e ≠ .sslDisconnect

/-- **The `SocketEvent` of slot `k` has been taken out of the engine:** its callback thread has been begun
with `ECANCELED`, and its event is marked. -/
structure TakenOut (c c' : Conn) (k : ConnEventClass) (e : EventId) : Prop where
  arg : (c'.sp.event.get k).arg = some e
  inEngine : (c'.sp.event.get k).inEngine = false
  error : (c'.sp.event.get k).error = Errno.ecanceled
  begun : (c'.sp.event.get k).begun = (c.sp.event.get k).begun + 1
  cancelled : (c'.events e).error = Errno.ecanceled

/-- **The abort reached every event it is meant to reach.** -/
def AbortReaches (c : Conn) (current : Option EventId) (c' : Conn) : Prop :=
  ∀ k e, AwaitsAbort c current k e → TakenOut c c' k e

/-- **Every event that waits in the engine waits in a slot that the abort acts on:** the transaction has
no problem yet, the socket is open, no other connect-class event is active, and the slot, which
`blockedOn` chose for the waiting event, is also the slot of an active event other than the current
one. -/
def AbortCovers (c : Conn) (current : Option EventId) : Prop :=
  ∀ k e, AwaitsAbort c current k e → AbortHits c current k

theorem SocketEvent.kill_inEngine {se : SocketEvent} (h : se.inEngine = true) :
    se.kill = { se with error := Errno.ecanceled, inEngine := false, begun := se.begun + 1 } := by
  simp [SocketEvent.kill, sockEventKill, SocketEvent.complete, beginIf, h]

/-- An event that is linked in a slot the abort acts on is in such a slot itself: the abort acts on the receive and the
send slot together. -/
theorem AbortHits.of_linked (hsp : c.sp.Ok) (harg : (c.sp.event.get k).arg = some e) (hother : some e ≠ current)
    (hslot : c.activeEvent.get (c.classOf e) = some e) (hk : AbortHits c current k) :
    AbortHits c current (c.classOf e) := by
  have hne : k ≠ .connect := ((hsp k).slot (by rw [harg]; simp)).1
  have hfree := hk.2.free hne
  have hclass : c.classOf e ≠ .connect := by
    intro hconnect
    rw [hconnect] at hslot
    rcases hfree with hf | hf
    · exact absurd (hslot.symm.trans hf) (by simp)
    · exact hother (hslot.symm.trans hf)
  refine ⟨hk.1, hk.2.socket, by rw [hslot]; simp, ?_, fun heq => absurd heq hclass, fun _ => hfree⟩
  rw [hslot]
  exact hother

/-- **The abort of one step reaches exactly what it covers (proved).** -/
theorem Aborted.reaches_iff {c' : Conn} (hsp : c.sp.Ok)
    (hslot : ∀ k e, AwaitsAbort c current k e → c.activeEvent.get (c.classOf e) = some e)
    (h : Aborted c current c') : AbortReaches c current c' ↔ AbortCovers c current := by
  constructor
  · intro hreach k e hwait
    by_contra hmiss
    have hin := (hreach k e hwait).inEngine
    rw [h.kept k hmiss, hwait.inEngine] at hin
    cases hin
  · intro hcover k e hwait
    have hhit := hcover k e hwait
    have hkill := (h.killed k hhit).trans (SocketEvent.kill_inEngine hwait.inEngine)
    have hse := hslot k e hwait
    refine ⟨?_, ?_, ?_, ?_, h.cancelled _ e (hhit.of_linked hsp hwait.arg hwait.other hse) hse⟩ <;> rw [hkill]
    exact hwait.arg

end Waiting

/-- **An abort reaches every event that waits in the engine exactly when it covers them (proved).** -/
theorem reachable_abortReaches {s₀ s s' : AsyncSystem} {a : AsyncAction} {current : Option EventId}
    (hinit : s₀.Initial) (hs : Reachable (enabled asyncStep) s₀ s) (ha : s.aborts a = some current)
    (h : asyncStep s a = some s') :
    AbortReaches s.conn current s'.conn ↔ AbortCovers s.conn current := by
  have hinv := asyncInv_reachable hinit hs
  refine (asyncStep_aborts hinv ha h).conn.reaches_iff hinv.socket fun k e hwait => ?_
  exact hinv.slot_of_processing
    (List.mem_append_right _ (SOCK.mem_linked.mpr ⟨k, hwait.arg⟩))

/-- An asynchronous event is processed until the engine has it. -/
def waitRun (e : EventId) (moves : List (Stage × StageMove)) (blockedOn : SocketEventType) :
    List AsyncAction :=
  processRun e (moves ++ [(.blocked blockedOn, .test), (.submitting blockedOn, .submit 0)]) .inProgress

/-- A read that waits until the socket is readable. -/
def waitingRead : List AsyncAction :=
  queueRun 0 { type := .read, source := ⟨0, 1⟩ } ++
  waitRun 0 [(.destroying [], .destroy), (.starting, .test),
    (.processing, .process (.ret Errno.ewouldblock .readable))] .readable

/-- A handshake that waits until the socket is readable. -/
def waitingHandshake : List AsyncAction :=
  queueRun 0 { type := .tlsConnect, source := ⟨0, 1⟩ } ++
  waitRun 0 [(.destroying [], .destroy), (.starting, .test), (.processing, .checkBuffer),
    (.handshaking, .handshake (some 7) .wantRead)] .readable

/-- What an abort looks at, in a conn with one event. -/
structure Waiting where
  state : ConnState
  problem : Option AsyncProblem
  sp : SOCK
  activeEvent : Slots (Option EventId)
  type : ConnEventType
  deriving DecidableEq

def AsyncSystem.waiting (s : AsyncSystem) : Waiting :=
  ⟨s.conn.state, s.conn.transaction.problem, s.conn.sp, s.conn.activeEvent, s.conn.typeOf 0⟩

theorem waitingRead_waiting : (runFrom asyncStep (AsyncSystem.new (some 3)) waitingRead).map
    AsyncSystem.waiting = some ⟨.asynchronousClient, none,
      { number := some 3, event := ⟨{}, ⟨some 0, .readable, 0, true, 0⟩, {}⟩ },
      ⟨none, some 0, none⟩, .read⟩ := by
  decide +kernel

theorem waitingHandshake_waiting : (runFrom asyncStep (AsyncSystem.new (some 3))
    waitingHandshake).map AsyncSystem.waiting = some ⟨.asynchronousClient, none,
      { number := some 3, sslNew := some 7, event := ⟨{}, ⟨some 0, .readable, 0, true, 0⟩, {}⟩ },
      ⟨some 0, none, none⟩, .tlsConnect⟩ := by
  decide +kernel

/-- A read that waits in the engine is reached. -/
theorem reachable_abortReaches_read : ∃ s s' : AsyncSystem, s.aborts (.kill ⟨0, 9⟩) = some none ∧
    asyncStep s (.kill ⟨0, 9⟩) = some s' ∧ s.conn.sp.event.receive.arg = some 0 ∧
    AbortReaches s.conn none s'.conn := by
  obtain ⟨s, hrun, hobs⟩ := Option.map_eq_some_iff.mp waitingRead_waiting
  simp only [AsyncSystem.waiting, Waiting.mk.injEq] at hobs
  obtain ⟨hstate, hproblem, hsp, hactive, _⟩ := hobs
  have ha : s.aborts (.kill ⟨0, 9⟩) = some none := by
    simp only [AsyncSystem.aborts, hstate]
  refine ⟨s, _, ha, rfl, by rw [hsp], (reachable_abortReaches (AsyncSystem.new_initial (some 3))
    (reachable_of_runFrom hrun) ha rfl).mpr fun k e hwait => ?_⟩
  have harg := hwait.arg
  rw [hsp] at harg
  cases k with
  | receive =>
    refine ⟨hproblem, by rw [hsp]; simp, ?_, ?_, fun h => absurd h (by simp), fun _ => .inl ?_⟩ <;>
      rw [hactive] <;> simp [Slots.get]
  | connect | send => cases harg

/-- **A handshake that waits in the engine is not reached (proved).** -/
theorem abortReaches_fails : ¬ ∀ (s₀ s s' : AsyncSystem) (a : AsyncAction) (current : Option EventId),
    s₀.Initial → Reachable (enabled asyncStep) s₀ s → s.aborts a = some current →
    s.conn.transaction.problem = none → asyncStep s a = some s' →
    AbortReaches s.conn current s'.conn := by
  intro hall
  obtain ⟨s, hrun, hobs⟩ := Option.map_eq_some_iff.mp waitingHandshake_waiting
  simp only [AsyncSystem.waiting, Waiting.mk.injEq] at hobs
  obtain ⟨hstate, hproblem, hsp, hactive, htype⟩ := hobs
  have hinit := AsyncSystem.new_initial (some 3)
  have hreach := reachable_of_runFrom hrun
  have ha : s.aborts (.kill ⟨0, 9⟩) = some none := by
    simp only [AsyncSystem.aborts, hstate]
  have hwait : AwaitsAbort s.conn none .receive 0 := by
    refine ⟨?_, ?_, by simp, by rw [htype]; simp⟩ <;> rw [hsp] <;> rfl
  -- the receive slot is not occupied
  have hin := (hall _ s _ _ none hinit hreach ha hproblem rfl .receive 0 hwait).inEngine
  have hmiss : ¬ AbortHits s.conn none .receive := fun hk => hk.2.active (by rw [hactive]; rfl)
  have hkept := (asyncStep_aborts (asyncInv_reachable hinit hreach) ha rfl).conn.kept .receive hmiss
  rw [hkept, hwait.inEngine] at hin
  cases hin

end Connio
