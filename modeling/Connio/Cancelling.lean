import Connio.Abort
import Connio.Duplex

/-!
# Whether a cancellation lasts

`CancelEventsInProgress` marks an active event with `ECANCELED` and kills the `SocketEvent` of its slot.  The thread
that has the event reads the mark twice only, and `AsyncEventCallback` writes the engine's error over it.

* `callsOf` — what the process functions have done for one event;
* `StaysCancelled` — the event does nothing more, is not in the engine, and ends cancelled;
* `Stage.Heeds`, `Cancellable` — the places where an abort must find an event for that;
* `asyncStep_locked` — what every step but those of a thread, a callback or the engine does to a mark;
* `Cancelling`, `Cancelling.step` — **PROVED**: the invariant, and that every step keeps it;
* `reachable_staysCancelled` — **PROVED**: an event found in such a place stays cancelled along every run, unless the
  poll thread finds it expired;
* `cancellation_lost` — **PROVED**: an event found elsewhere can read on and end complete.
-/

namespace Connio

open Connio.Lib

/-! ### What an event does -/

/-- A call of the process function of `e`, octets it delivers, or `e` handed to the engine. -/
def LogEntry.isCallOf (e : EventId) : LogEntry → Bool
  | .io x _ | .deliver x _ | .wait x => decide (x = e)
  | _ => false

/-- **What the process functions have done for `e`:** the socket calls, the calls of its `ConnIOCB`, the deliveries and
the submissions to the engine. -/
def callsOf (e : EventId) (log : List LogEntry) : List LogEntry := (calls log).filter (LogEntry.isCallOf e)

/-- The poll thread does not find `e` expired. -/
def NotExpired (e : EventId) (s : AsyncSystem) : AsyncAction → Prop
  | .pollTimeout k => (s.conn.sp.event.get k).arg ≠ some e
  | _ => True

/-- `e` has ended cancelled. -/
def EndedCancelled (e : EventId) (s : AsyncSystem) : Prop :=
  ∃ source, .leave e .failed Errno.ecanceled source ∈ s.conn.log

/-- **`e` does nothing from `s` to `t`, and ends cancelled.** -/
structure StaysCancelled (e : EventId) (s t : AsyncSystem) : Prop where
  calls : callsOf e t.conn.log = callsOf e s.conn.log
  engine : ∀ k, (t.conn.sp.event.get k).arg = some e → (t.conn.sp.event.get k).inEngine = false
  ends : ∀ st err source, .leave e st err source ∈ t.conn.log → st = .failed ∧ err = Errno.ecanceled
  /-- nothing keeps it from its end -/
  ending : ∃ u, ReachableVia (enabled asyncStep) (NotExpired e) t u ∧ EndedCancelled e u

/-! ### Where an abort finds it -/

/-- **A thread in this stage does no more than abort its event,** if that is marked; a thread that has just found the
transport blocked tests the problem anyway. -/
def Stage.Heeds (marked : Prop) : Stage → Prop
  | .blocked _ | .returned .inProgress => True
  | .destroying _ | .starting | .aborting | .aborted | .returned .failed => marked
  | _ => False

theorem Stage.Heeds.mono {marked marked' : Prop} {stage : Stage} (h : stage.Heeds marked) (himp : marked → marked') :
    stage.Heeds marked' := by
  cases stage with
  | destroying | starting | aborting | aborted => exact himp h
  | blocked => trivial
  | processing | handshaking | submitting => exact h
  | returned st =>
    cases st with
    | inProgress => trivial
    | failed => exact himp h
    | queued | complete | timedOut | killed | partialResult => exact h

/-- **The abort finds `e` where its mark lasts:** the abort marks it, and it is not inside its process function or on
its way into the engine; its callback thread has stored the engine's error; if it waits in the engine, it does so in a
`SocketEvent` that the abort kills. -/
structure Cancellable (s : AsyncSystem) (current : Option EventId) (e : EventId) : Prop where
  worker : ∀ w ∈ s.workers, w.event = e → w.stage.Heeds (AbortHits s.conn current (s.conn.classOf e))
  callback : ∀ cb ∈ s.callbacks, cb.event = e →
    AbortHits s.conn current (s.conn.classOf e) ∧ cb.stored = true
  engine : ∀ k, (s.conn.sp.event.get k).arg = some e → AbortHits s.conn current k

/-! ### A thread that processes an event -/

section Work

variable {c c' : Conn} {e x : EventId} {stage stage' : Stage} {m : StageMove}

theorem callsOf_of_calls (h : calls c'.log = calls c.log) : callsOf x c'.log = callsOf x c.log :=
  congrArg (List.filter (LogEntry.isCallOf x)) h

/-- A call for another event. -/
theorem callsOf_note {entry : LogEntry} (hx : entry.isCallOf x = false) :
    callsOf x (c.note entry).log = callsOf x c.log := by
  show List.filter _ (List.filter _ (entry :: c.log)) = _
  cases hcall : entry.isCall with
  | true =>
    rw [List.filter_cons_of_pos hcall, List.filter_cons_of_neg (by simp [hx])]
    rfl
  | false =>
    rw [List.filter_cons_of_neg (by simp [hcall])]
    rfl

theorem socketEventComplete_calls (c : Conn) (e : EventId) :
    calls (socketEventComplete c e).log = calls c.log := by
  unfold socketEventComplete clientBufferFree
  simp only []
  split
  · split <;> rfl
  · rfl
  · rfl

theorem socketEventAbort_calls (c : Conn) (e : EventId) : calls (socketEventAbort c e).log = calls c.log := by
  unfold socketEventAbort clientBufferFree
  simp only []
  split
  · split <;> rfl
  all_goals rfl

theorem connEventProcessEnd_calls (c : Conn) (e : EventId) (st : ConnEventStatus) :
    calls (connEventProcessEnd c e st).2.log = calls c.log :=
  (connEventFreeResources_lockFrame c e).calls

theorem processReturned_calls (c : Conn) (e : EventId) (r : Errno × SocketEventType) :
    calls (processReturned c e r).2.log = calls c.log := by
  obtain ⟨err, blockedOn⟩ := r
  simp only [processReturned]
  split
  · exact (connEventProcessEnd_calls _ e _).trans (socketEventComplete_calls c e)
  · split <;> rfl

/-- The process function of `e` calls for `e` only. -/
theorem processMove_calls {m : ProcessMove} {r : Option (Errno × SocketEventType)} (hx : x ≠ e)
    (h : processMove c e m = some (r, c')) : callsOf x c'.log = callsOf x c.log := by
  have hio : ∀ {c₁ : Conn} {call : IoCall}, callsOf x (c₁.note (.io e call)).log = callsOf x c₁.log :=
    callsOf_note (decide_eq_false (Ne.symm hx))
  have hdeliver : ∀ {c₁ : Conn} {data : List Octet}, callsOf x (c₁.note (.deliver e data)).log = callsOf x c₁.log :=
    callsOf_note (decide_eq_false (Ne.symm hx))
  cases m with
  | receive data =>
    simp only [processMove] at h
    split at h
    · cases h
      exact hio
    · split at h <;> cases h
      exact hio
  | deliver count taken =>
    simp only [processMove] at h
    split at h <;> cases h
    exact hdeliver
  | transfer transferred =>
    simp only [processMove] at h
    split at h <;> cases h
    rfl
  | disconnectStart =>
    simp only [processMove] at h
    split at h
    · split at h <;> cases h
      · rfl
      · exact hio
    · cases h
  | send | ioCallback | connWrite | connectStart | shutdown =>
    simp only [processMove] at h
    split at h <;> cases h
    exact hio
  | ret err blockedOn =>
    obtain ⟨_, _, heq⟩ := Option.map_eq_some_iff.mp h
    cases heq
    rfl

/-- **A thread calls for its own event only (proved).** -/
theorem eventProcessStep_calls (hx : x ≠ e) (h : eventProcessStep c e stage m = some (stage', c')) :
    callsOf x c'.log = callsOf x c.log := by
  have hreturned : ∀ {c₁ : Conn} {r : Errno × SocketEventType}, processReturned c₁ e r = (stage', c') →
      callsOf x c'.log = callsOf x c₁.log := by
    intro c₁ r hresult
    have hcalls := processReturned_calls c₁ e r
    rw [hresult] at hcalls
    exact callsOf_of_calls hcalls
  have hother : decide (e = x) = false := decide_eq_false (Ne.symm hx)
  cases eventProcessStep_cases h with
  | destroy freeList hresult =>
    cases hresult
    exact callsOf_of_calls (connEventFreeListDestroy_lockFrame _ c).calls
  | move hmove hresult =>
    cases hresult
    exact processMove_calls hx hmove
  | processed hmove hresult => exact (hreturned hresult).trans (processMove_calls hx hmove)
  | overflow _ _ hresult => exact hreturned hresult
  | handshake new ret hresult => exact (hreturned hresult).trans (callsOf_note hother)
  | submit blockedOn epollErr hresult =>
    unfold submitToEngine at hresult
    simp only [] at hresult
    split at hresult <;> cases hresult
    · exact callsOf_note hother
    · rfl
  | start hresult | empty _ _ hresult | cancelled _ _ hresult | unproblematic _ _ hresult =>
    cases hresult
    rfl
  | abort hresult =>
    cases hresult
    exact callsOf_of_calls (socketEventAbort_calls c e)
  | judge hresult =>
    cases hresult
    exact callsOf_of_calls (connEventProcessEnd_calls c e _)

/-- `SocketEventWaitEx` links the event it is called for, in a `SocketEvent` that is not linked. -/
theorem socketEventWaitEx_linked {sp sp' : SOCK} {blockedOn : SocketEventType} {epollErr err : Errno} (hok : sp.Ok)
    (hw : socketEventWaitEx sp blockedOn e epollErr = (err, sp')) {k : ConnEventClass}
    (hx : (sp'.event.get k).arg = some x) : sp'.event.get k = sp.event.get k ∨ x = e := by
  rcases socketEventWaitEx_spec hok hw with ⟨_, k', _, _, _, rfl, _⟩ | ⟨_, rfl | ⟨k', _, rfl, _⟩⟩
  · simp only [SOCK.setSocketEvent, Slots.get_set] at hx ⊢
    split at hx
    · exact .inr (Option.some.inj hx).symm
    next hk => exact .inl (if_neg hk)
  · exact .inl rfl
  · simp only [SOCK.setSocketEvent, Slots.get_set] at hx ⊢
    split at hx
    · cases hx
    next hk => exact .inl (if_neg hk)

/-- **A thread links its own event only, and on its way into the engine (proved).** -/
theorem eventProcessStep_linked (hok : c.sp.Ok) (h : eventProcessStep c e stage m = some (stage', c'))
    {k : ConnEventClass} (hx : (c'.sp.event.get k).arg = some x) :
    c'.sp.event.get k = c.sp.event.get k ∨ (x = e ∧ ∃ blockedOn, stage = .submitting blockedOn) := by
  have hsame : c'.sp.event = c.sp.event → c'.sp.event.get k = c.sp.event.get k := fun heq => by rw [heq]
  have hreturned : ∀ {c₁ : Conn} {r : Errno × SocketEventType}, c₁.sp.event = c.sp.event →
      processReturned c₁ e r = (stage', c') → c'.sp.event = c.sp.event := by
    intro c₁ r hsp heq
    obtain ⟨err, blockedOn⟩ := r
    simp only [processReturned] at heq
    split at heq
    · cases heq
      exact ((connEventFreeResources_mild _ e).socket.trans (socketEventComplete_mild c₁ e).socket).trans hsp
    · split at heq <;> cases heq <;> exact hsp
  cases eventProcessStep_cases h with
  | destroy freeList hresult =>
    cases hresult
    exact .inl (hsame (connEventFreeListDestroy_spec _ c).2.2.2)
  | move hmove hresult =>
    cases hresult
    exact .inl (hsame (processMove_frame (S := fun _ => True) hmove).2.1.socket)
  | processed hmove hresult =>
    exact .inl (hsame (hreturned (processMove_frame (S := fun _ => True) hmove).2.1.socket hresult))
  | overflow _ _ hresult => exact .inl (hsame (hreturned rfl hresult))
  | handshake new ret hresult => exact .inl (hsame (hreturned (sslConnect_event c.sp new ret) hresult))
  | submit blockedOn epollErr hresult =>
    unfold submitToEngine at hresult
    simp only [] at hresult
    split at hresult <;> cases hresult
    all_goals
      next hw => exact (socketEventWaitEx_linked hok hw hx).imp_right fun hxe => ⟨hxe, blockedOn, rfl⟩
  | start hresult | empty _ _ hresult | cancelled _ _ hresult | unproblematic _ _ hresult =>
    cases hresult
    exact .inl rfl
  | abort hresult =>
    cases hresult
    exact .inl (hsame (socketEventAbort_mild c e).socket)
  | judge hresult =>
    cases hresult
    exact .inl (hsame (connEventFreeResources_mild c e).socket)

/-- **A thread that heeds the mark (proved):** it calls nothing, and brings its event to its end. -/
theorem eventProcessStep_heeds (hp : c.transaction.problem ≠ none)
    (hheeds : stage.Heeds ((c.events e).error = Errno.ecanceled))
    (h : eventProcessStep c e stage m = some (stage', c')) :
    callsOf e c'.log = callsOf e c.log ∧ (c'.events e).error = Errno.ecanceled ∧
      stage'.Heeds ((c'.events e).error = Errno.ecanceled) := by
  cases eventProcessStep_cases h with
  | destroy freeList hresult =>
    cases hresult
    have hmark : ((connEventFreeListDestroy c freeList).events e).error = Errno.ecanceled :=
      ((connEventFreeListDestroy_spec freeList c).2.1 e).trans hheeds
    exact ⟨callsOf_of_calls (connEventFreeListDestroy_lockFrame _ c).calls, hmark, hmark⟩
  | start hresult =>
    have hmark : (c.events e).error = Errno.ecanceled := hheeds
    rw [if_neg (by rw [hmark]; decide)] at hresult
    cases hresult
    exact ⟨rfl, hmark, hmark⟩
  | cancelled blockedOn _ hresult =>
    cases hresult
    have hmark : ((c.setError e Errno.ecanceled).events e).error = Errno.ecanceled := by
      simp [Conn.setError, Conn.setEvent]
    exact ⟨rfl, hmark, hmark⟩
  | unproblematic _ hnone => exact absurd hnone hp
  | abort hresult =>
    cases hresult
    have hmark : ((socketEventAbort c e).events e).error = Errno.ecanceled :=
      ((socketEventAbort_mild c e).error e).trans hheeds
    exact ⟨callsOf_of_calls (socketEventAbort_calls c e), hmark, hmark⟩
  | judge hresult =>
    have hmark : (c.events e).error = Errno.ecanceled := hheeds
    have hstatus : abortStatus (c.events e) = .failed := by
      unfold abortStatus
      rw [hmark]
      rfl
    rw [hstatus] at hresult
    cases hresult
    have hmark' : ((connEventProcessEnd c e .failed).2.events e).error = Errno.ecanceled := by
      rw [← hmark, ← (connEventFreeResources_mild c e).error e]
      simp [connEventProcessEnd, Conn.setStatus, Conn.setEvent]
    exact ⟨callsOf_of_calls (connEventProcessEnd_calls c e _), hmark', hmark'⟩
  | move | processed | empty | overflow | handshake | submit => exact hheeds.elim

end Work

/-! ### The other steps -/

/-- The steps of a thread that processes an event, of the engine, and of a callback thread before it takes the event
lock. -/
def AsyncAction.carries : AsyncAction → Bool
  | .work _ _ | .pollReady _ _ | .pollTimeout _ | .handle _ | .store _ => true
  | _ => false

/-- **What the event lock does to the marks:** it sets them, kills `SocketEvent`s and takes callbacks away. -/
structure LockedStep (s s' : AsyncSystem) : Prop where
  error : ∀ x ∈ allocated s.conn.log, (s'.conn.events x).error = (s.conn.events x).error ∨
    (s'.conn.events x).error = Errno.ecanceled
  socket : ∀ k, s'.conn.sp.event.get k = s.conn.sp.event.get k ∨
    s'.conn.sp.event.get k = (s.conn.sp.event.get k).kill
  callbacks : ∀ cb ∈ s'.callbacks, cb ∈ s.callbacks

section Other

variable {s s' : AsyncSystem}

theorem LockedStep.of_owned {given taken : List EventId} (h : Owned s.conn given s'.conn taken)
    (hcb : ∀ cb ∈ s'.callbacks, cb ∈ s.callbacks) : LockedStep s s' := ⟨h.error, h.socket, hcb⟩

/-- The errors and the socket events stay. -/
theorem LockedStep.of_same (herror : ∀ x, (s'.conn.events x).error = (s.conn.events x).error)
    (hsp : s'.conn.sp.event = s.conn.sp.event) (hcb : s'.callbacks = s.callbacks) : LockedStep s s' :=
  ⟨fun x _ => .inl (herror x), fun k => .inl (by rw [hsp]), fun cb h => hcb ▸ h⟩

theorem outcome_callbacks (s : AsyncSystem) (r : Outcome × Conn) : (s.outcome r).callbacks = s.callbacks := by
  obtain ⟨o, c⟩ := r
  rcases o with ⟨e, freeList⟩ | (_ | _) <;> rfl

/-- **Every other step (proved).** -/
theorem asyncStep_locked {a : AsyncAction} (hinv : AsyncInv s) (h : asyncStep s a = some s')
    (ha : a.carries = false) : LockedStep s s' := by
  have howned : ∀ c' given taken, Owned s.conn given c' taken → LockedStep s { s with conn := c' } :=
    fun c' given taken h => .of_owned h fun cb hcb => hcb
  have houtcome : ∀ (s₀ : AsyncSystem) (r : Outcome × Conn) given taken, Owned s.conn given r.2 taken →
      (∀ cb ∈ s₀.callbacks, cb ∈ s.callbacks) → LockedStep s (s₀.outcome r) := by
    intro s₀ r given taken h hcb
    have howned' : Owned s.conn given (s₀.outcome r).conn taken := by
      rw [AsyncSystem.outcome_conn]
      exact h
    refine .of_owned howned' ?_
    rw [outcome_callbacks]
    exact hcb
  cases a with
  | work | pollReady | pollTimeout | handle | store => cases ha
  | alloc e ce =>
    simp only [asyncStep] at h
    split at h <;> cases h
    next hok =>
      obtain ⟨_, hlock⟩ := hinv.alloc (P := False) hok.1 (ConnEvent.assigned_iff hok.2)
      exact .of_owned hlock.toOwned fun cb hcb => hcb
  | enqueue connEvent allocs source =>
    simp only [asyncStep] at h
    split at h <;> cases h
    next hok =>
    have halloc : ∀ e, connEvent = some e → e ∈ allocated s.conn.log ∧ e ∉ accepted s.conn.log :=
      fun e he => hinv.caller_new (hok.1 e he)
    unfold AsyncSystem.enqueue
    simp only []
    split
    next r hr =>
      have heff := eventEnqueue_effect (P := False) hinv.wf hinv.queue halloc (Allocs.fresh_iff hok.2) hr
        fun hfalse => hfalse.elim
      exact houtcome _ r _ _ heff.effect.toOwned fun cb hcb => hcb
    · cases connEvent with
      | none => exact .of_same (fun _ => rfl) rfl rfl
      | some e => exact .of_same (fun _ => rfl) rfl rfl
  | enqueueFailure errno source =>
    cases h
    exact howned _ _ _ (eventEnqueueFailure_effect (P := False) hinv.wf errno source).1.toOwned
  | submit qFailure client source =>
    simp only [asyncStep] at h
    split at h <;> cases h
    next r hr =>
      exact houtcome _ r _ _ (eventsSubmit_effect (P := False) hinv.wf hr).effect.toOwned fun cb hcb => hcb
    · exact .of_same (fun _ => rfl) rfl rfl
  | kill source =>
    cases h
    exact howned _ _ _ (connKillEx_effect (P := False) hinv.wf source).1.toOwned
  | handleAbort source =>
    cases h
    exact howned _ _ _ (connHandleConnectionsAbort_effect (P := False) hinv.wf source).1.toOwned
  | writeAbort source =>
    cases h
    exact howned _ _ _ (eventQueueAbort_effect (P := False) hinv.wf none _ (.inr (.inl rfl))).1.toOwned
  | shuttingDown | waitForSubmit =>
    cases h
    exact .of_same (fun _ => rfl) rfl rfl
  | sendBuffer async used =>
    cases h
    exact howned _ _ _ (writeClientData_effect (P := False) hinv.wf async used).1.toOwned
  | free e =>
    have hmild := connEventFreeResources_mild s.conn e
    simp only [asyncStep] at h
    split at h
    · cases h
      exact .of_same hmild.error hmild.socket rfl
    · split at h <;> cases h
      exact .of_same hmild.error hmild.socket rfl
  | relock w =>
    simp only [asyncStep] at h
    split at h
    next st hst =>
      split at h <;> cases h
      next hw =>
        have heff := (hinv.relock_effect (P := False) hw hst fun hfalse => hfalse.elim).1
        exact houtcome _ _ _ _ heff.effect.toOwned fun cb hcb => hcb
    · cases h
  | enter cb =>
    simp only [asyncStep] at h
    split at h <;> cases h
    next hok =>
      have hbusy := hinv.busy_of_slot (hinv.slot_of_callback hok.1)
      have heff := connEventsProcess_effect (P := False) hinv.wf hbusy (some cb.event)
      exact houtcome _ _ _ _ heff.effect.toOwned fun cb hcb => List.mem_of_mem_erase hcb
  | prepare =>
    simp only [asyncStep] at h
    split at h <;> cases h
    next hmem => exact .of_owned (hinv.prepare (P := False) hmem).2.toOwned fun cb hcb => hcb
  | destroy x =>
    simp only [asyncStep] at h
    split at h
    next summary freeList mark =>
      split at h <;> cases h
      obtain ⟨_, herror, _, hsp⟩ := connEventFreeListDestroy_spec freeList s.conn
      exact .of_same herror hsp rfl
    · cases h
  | call x =>
    simp only [asyncStep] at h
    split at h
    · split at h <;> cases h
      exact .of_same (fun _ => rfl) rfl rfl
    · cases h

/-- A thread that has not come back stays where it is while others make their steps. -/
theorem asyncStep_stays {a : AsyncAction} (h : asyncStep s a = some s') {w : Worker} (hw : w ∈ s.workers)
    (hst : ∀ st, w.stage ≠ .returned st) (hwork : ∀ w m, a ≠ .work w m) : w ∈ s'.workers := by
  have houtcome : ∀ (s₀ : AsyncSystem) (r : Outcome × Conn), w ∈ s₀.workers → w ∈ (s₀.outcome r).workers := by
    intro s₀ r hw
    obtain ⟨o, c⟩ := r
    rcases o with ⟨e, freeList⟩ | (_ | _)
    · exact List.mem_cons_of_mem _ hw
    · exact hw
    · exact hw
  cases a with
  | work w m => exact absurd rfl (hwork w m)
  | relock w' =>
    simp only [asyncStep] at h
    split at h
    next st hst' =>
      split at h <;> cases h
      exact houtcome _ _ ((List.mem_erase_of_ne fun heq => hst st (by rw [heq]; exact hst')).mpr hw)
    · cases h
  | enqueue connEvent allocs source =>
    simp only [asyncStep] at h
    split at h <;> cases h
    unfold AsyncSystem.enqueue
    simp only []
    split
    · exact houtcome _ _ hw
    · cases connEvent <;> exact hw
  | submit qFailure client source =>
    simp only [asyncStep] at h
    split at h <;> cases h
    · exact houtcome _ _ hw
    · exact hw
  | enter cb =>
    simp only [asyncStep] at h
    split at h <;> cases h
    exact houtcome _ _ hw
  | free e =>
    simp only [asyncStep] at h
    split at h
    · cases h
      exact hw
    · split at h <;> cases h
      exact hw
  | destroy x | call x =>
    simp only [asyncStep] at h
    split at h
    · split at h <;> cases h
      exact hw
    · cases h
  | alloc | handle | store | prepare =>
    simp only [asyncStep] at h
    split at h <;> cases h
    exact hw
  | enqueueFailure | kill | handleAbort | writeAbort | shuttingDown | waitForSubmit | sendBuffer | pollReady
    | pollTimeout =>
    cases h
    exact hw

end Other

/-! ### The invariant -/

/-- **The abort that ended in `s₀` has its way with `e`.** -/
structure Cancelling (s₀ : AsyncSystem) (e : EventId) (s : AsyncSystem) : Prop where
  calls : callsOf e s.conn.log = callsOf e s₀.conn.log
  ends : ∀ st err source, .leave e st err source ∈ s.conn.log → st = .failed ∧ err = Errno.ecanceled
  started : e ∈ started s.conn.log
  problem : e ∈ s.processing → s.conn.transaction.problem ≠ none
  /-- a thread that finds the transport blocked sets the mark itself -/
  mark : e ∈ s.processing → (s.conn.events e).error = Errno.ecanceled ∨
    ∃ w ∈ s.workers, w.event = e ∧ ∃ blockedOn, w.stage = .blocked blockedOn
  worker : ∀ w ∈ s.workers, w.event = e → w.stage.Heeds True
  callback : ∀ cb ∈ s.callbacks, cb.event = e → cb.stored = false → cb.error = Errno.ecanceled
  socket : ∀ k, (s.conn.sp.event.get k).arg = some e →
    (s.conn.sp.event.get k).inEngine = false ∧ (s.conn.sp.event.get k).error = Errno.ecanceled

section Invariant

variable {s₀ s s' : AsyncSystem} {e : EventId} {a : AsyncAction} {current : Option EventId}

/-- What is being processed has been started and has not ended. -/
theorem AsyncInv.unfinished (hinv : AsyncInv s) (he : e ∈ s.processing) : Unfinished s.conn.log e :=
  hinv.queue.order.active_started _ e (hinv.slot_of_processing he)

/-- An event that has been started is being processed until it ends. -/
theorem AsyncInv.processing_or_left (hinv : AsyncInv s) (he : e ∈ started s.conn.log) :
    e ∈ s.processing ∨ e ∈ left s.conn.log := by
  rcases hinv.queue.order.started_cases e he with hleft | hactive
  · exact .inr hleft
  · exact .inl (hinv.processing_of_slot hactive)

/-- An event that is being processed after a step was processed before it. -/
theorem AsyncInv.processing_before (hinv : AsyncInv s) (h : asyncStep s a = some s') (hs : e ∈ started s.conn.log)
    (he : e ∈ s'.processing) : e ∈ s.processing := by
  obtain ⟨hinv', hchange⟩ := asyncStep_effect hinv h
  have hsuffix : s.conn.log.IsSuffix s'.conn.log := reachable_suffix hchange.refines
  refine (hinv.processing_or_left hs).resolve_right fun hleft => ?_
  exact (hinv'.unfinished he).2 ((hsuffix.sublist.filterMap _).subset hleft)

/-- One thread at most owns an event. -/
theorem AsyncInv.worker_unique (hinv : AsyncInv s) {w w' : Worker} (hw : w ∈ s.workers) (hw' : w' ∈ s.workers)
    (hh : w.stage.holding = true) (hh' : w'.stage.holding = true) (heq : w'.event = w.event) : w' = w := by
  by_contra hne
  exact hinv.event_ne hw ((List.mem_erase_of_ne hne).mpr hw') hh hh' heq

namespace Cancelling

/-- A thread that owns the event, and has not just found the transport blocked, finds the mark. -/
theorem marked (hc : Cancelling s₀ e s) (hinv : AsyncInv s) {w : Worker} (hw : w ∈ s.workers) (hwe : w.event = e)
    (hholding : w.stage.holding = true) (hblocked : ∀ blockedOn, w.stage ≠ .blocked blockedOn) :
    (s.conn.events e).error = Errno.ecanceled := by
  refine (hc.mark (hwe ▸ AsyncSystem.processing_of_worker hw hholding)).resolve_right ?_
  rintro ⟨w', hw', hwe', blockedOn, hst⟩
  have hsame := hinv.worker_unique hw hw' hholding (by rw [hst]; rfl) (hwe'.trans hwe.symm)
  exact hblocked blockedOn (hsame ▸ hst)

/-- What every step keeps. -/
theorem of_step (hc : Cancelling s₀ e s) (hinv : AsyncInv s) (h : asyncStep s a = some s')
    (hcalls : callsOf e s'.conn.log = callsOf e s.conn.log)
    (hproblem : s.conn.transaction.problem ≠ none → s'.conn.transaction.problem ≠ none ∨
      s.conn.state = .asynchronousEngineComplete)
    (hmark : e ∈ s.processing → (s'.conn.events e).error = Errno.ecanceled ∨
      ∃ w ∈ s'.workers, w.event = e ∧ ∃ blockedOn, w.stage = .blocked blockedOn)
    (hworker : ∀ w ∈ s'.workers, w.event = e → w.stage.Heeds True)
    (hcallback : ∀ cb ∈ s'.callbacks, cb.event = e → cb.stored = false → cb.error = Errno.ecanceled)
    (hsocket : ∀ k, (s'.conn.sp.event.get k).arg = some e →
      (s'.conn.sp.event.get k).inEngine = false ∧ (s'.conn.sp.event.get k).error = Errno.ecanceled) :
    Cancelling s₀ e s' := by
  have hsuffix : s.conn.log.IsSuffix s'.conn.log := reachable_suffix (asyncStep_effect hinv h).2.refines
  refine ⟨hcalls.trans hc.calls, fun st err source hleave => ?_, (hsuffix.sublist.filterMap _).subset hc.started,
    fun he => ?_, fun he => hmark (hinv.processing_before h hc.started he), hworker, hcallback, hsocket⟩
  · -- a new result is the one that a thread brings back
    have hnone : ∀ {xs : List LogEntry}, left xs = [] → .leave e st err source ∉ xs := fun hxs hmem => by
      have hleft : e ∈ left _ := List.mem_filterMap.mpr ⟨_, hmem, rfl⟩
      rw [hxs] at hleft
      cases hleft
    obtain ⟨xs, hxs, hlog | ⟨w, status, _, hw, hst, hfinal, hstatus, hlog⟩⟩ := asyncStep_leaves hinv h
    · rw [hlog] at hleave
      exact hc.ends st err source ((List.mem_append.mp hleave).resolve_left (hnone hxs))
    · rw [hlog] at hleave
      rcases List.mem_cons.mp ((List.mem_append.mp hleave).resolve_left (hnone hxs)) with heq | hold
      · simp only [LogEntry.leave.injEq] at heq
        obtain ⟨rfl, rfl, rfl, rfl⟩ := heq
        have hheeds := hc.worker w hw rfl
        rw [hst] at hheeds
        rw [hstatus]
        cases status with
        | failed =>
          exact ⟨rfl, hc.marked hinv hw rfl (by rw [hst]; rfl) fun blockedOn heq => by rw [hst] at heq; cases heq⟩
        | inProgress => exact absurd rfl hfinal.2
        | queued | complete | timedOut | killed | partialResult => exact hheeds.elim
      · exact hc.ends st err source hold
  · have hbefore := hinv.processing_before h hc.started he
    refine (hproblem (hc.problem hbefore)).resolve_right fun hcomplete => ?_
    rcases hinv.busy_of_slot (hinv.slot_of_processing hbefore) with hbusy | hbusy <;> rw [hcomplete] at hbusy <;>
      cases hbusy

/-- A step of the engine or of a callback thread: it leaves the threads, and the errors of other events, alone. -/
theorem carried (hc : Cancelling s₀ e s) (hinv : AsyncInv s) (h : asyncStep s a = some s')
    (hwork : ∀ w m, a ≠ .work w m) (hworkers : s'.workers = s.workers)
    (herror : (s.conn.events e).error = Errno.ecanceled → (s'.conn.events e).error = Errno.ecanceled)
    (hcallback : ∀ cb ∈ s'.callbacks, cb.event = e → cb.stored = false → cb.error = Errno.ecanceled)
    (hsocket : ∀ k, (s'.conn.sp.event.get k).arg = some e →
      (s'.conn.sp.event.get k).inEngine = false ∧ (s'.conn.sp.event.get k).error = Errno.ecanceled) :
    Cancelling s₀ e s' := by
  have hother := asyncStep_other hinv h hwork
  refine hc.of_step hinv h (callsOf_of_calls hother.calls) hother.problem (fun he => ?_) ?_ hcallback hsocket
  · rw [hworkers]
    exact (hc.mark he).imp_left herror
  · rw [hworkers]
    exact hc.worker

/-- The event lock. -/
theorem locked (hc : Cancelling s₀ e s) (hinv : AsyncInv s) (h : asyncStep s a = some s') (ha : a.carries = false) :
    Cancelling s₀ e s' := by
  have hlocked := asyncStep_locked hinv h ha
  have hwork : ∀ w m, a ≠ .work w m := fun w m heq => by
    rw [heq] at ha
    cases ha
  have hother := asyncStep_other hinv h hwork
  refine hc.of_step hinv h (callsOf_of_calls hother.calls) hother.problem (fun he => ?_) (fun w hw hwe => ?_)
    (fun cb hcb => hc.callback cb (hlocked.callbacks cb hcb)) fun k hk => ?_
  · rcases hc.mark he with hmarked | ⟨w, hw, hwe, blockedOn, hst⟩
    · left
      have halloc := hinv.queue.slot.slot_allocated _ _ (hinv.slot_of_processing he)
      rcases hlocked.error e halloc with herror | herror
      · exact herror.trans hmarked
      · exact herror
    · exact .inr ⟨w, asyncStep_stays h hw (fun st heq => by rw [hst] at heq; cases heq) hwork, hwe, blockedOn, hst⟩
  · rcases hother.workers w hw with hold | ⟨freeList, hst⟩
    · exact hc.worker w hold hwe
    · rw [hst]
      trivial
  · rcases hlocked.socket k with hsame | hkilled
    · rw [hsame] at hk ⊢
      exact hc.socket k hk
    · rw [hkilled]
      obtain ⟨_, _, herror, hin, _⟩ := beginIf_complete { s.conn.sp.event.get k with error := Errno.ecanceled }
      exact ⟨hin, herror⟩

/-- A thread makes its next step. -/
theorem work (hc : Cancelling s₀ e s) (hinv : AsyncInv s) {w : Worker} {m : StageMove}
    (h : asyncStep s (.work w m) = some s') : Cancelling s₀ e s' := by
  have hstep := h
  simp only [asyncStep] at hstep
  split at hstep
  next hw =>
    split at hstep <;> cases hstep
    next stage' c' hprocess =>
    have hlocal := eventProcessStep_local hinv.socket hprocess
    have hproblem : c'.transaction.problem = s.conn.transaction.problem := by rw [hlocal.quiet.transaction]
    have hsocket : ∀ k, (c'.sp.event.get k).arg = some e →
        (c'.sp.event.get k).inEngine = false ∧ (c'.sp.event.get k).error = Errno.ecanceled := by
      intro k hk
      rcases eventProcessStep_linked hinv.socket hprocess hk with hsame | ⟨hwe, blockedOn, hst⟩
      · rw [hsame] at hk ⊢
        exact hc.socket k hk
      · have hheeds := hc.worker w hw hwe.symm
        rw [hst] at hheeds
        exact hheeds.elim
    by_cases hwe : w.event = e
    · -- the thread that has the event
      have he : e ∈ s.processing := hwe ▸ AsyncSystem.processing_of_worker hw hlocal.holding
      have hheeds : w.stage.Heeds ((s.conn.events w.event).error = Errno.ecanceled) := by
        cases hst : w.stage with
        | blocked blockedOn => trivial
        | _ =>
          have hheeds := hc.worker w hw hwe
          rw [hst] at hheeds
          refine hheeds.mono fun _ => ?_
          rw [hwe]
          exact hc.marked hinv hw hwe hlocal.holding fun blockedOn heq => by rw [hst] at heq; cases heq
      obtain ⟨hcalls, hmark, hheeds'⟩ := eventProcessStep_heeds (hc.problem he) hheeds hprocess
      rw [hwe] at hcalls hmark
      refine hc.of_step hinv h hcalls (fun hp => .inl (hproblem ▸ hp)) (fun _ => .inl hmark) (fun w' hw' hwe' => ?_)
        hc.callback hsocket
      rcases List.mem_cons.mp hw' with rfl | hw'
      · exact hheeds'.mono fun _ => trivial
      · exact hc.worker w' (List.mem_of_mem_erase hw') hwe'
    · -- another thread
      refine hc.of_step hinv h (eventProcessStep_calls (Ne.symm hwe) hprocess) (fun hp => .inl (hproblem ▸ hp))
        (fun he => ?_) (fun w' hw' hwe' => ?_) hc.callback hsocket
      · rcases hc.mark he with hmarked | ⟨w', hw', hwe', hst⟩
        · exact .inl ((hlocal.error e (Ne.symm hwe)).trans hmarked)
        · have hne : w' ≠ w := fun heq => hwe (heq ▸ hwe')
          exact .inr ⟨w', List.mem_cons_of_mem _ ((List.mem_erase_of_ne hne).mpr hw'), hwe', hst⟩
      · rcases List.mem_cons.mp hw' with rfl | hw'
        · exact absurd hwe' hwe
        · exact hc.worker w' (List.mem_of_mem_erase hw') hwe'
  · cases hstep

/-- **Every step keeps it (proved),** but the poll thread finding the event expired. -/
theorem step (hc : Cancelling s₀ e s) (hinv : AsyncInv s) (hok : NotExpired e s a) (h : asyncStep s a = some s') :
    Cancelling s₀ e s' := by
  cases ha : a.carries with
  | false => exact hc.locked hinv h ha
  | true =>
    cases a with
    | work w m => exact hc.work hinv h
    | pollReady k events =>
      have hsame : (s.conn.sp.event.get k).arg = some e → pollReady s.conn.sp k events = s.conn.sp := fun hk => by
        unfold pollReady
        rw [if_neg (by rw [(hc.socket k hk).1]; simp)]
      have hevents : s'.conn.events = s.conn.events ∧ s'.conn.sp = pollReady s.conn.sp k events ∧
          s'.callbacks = s.callbacks ∧ s'.workers = s.workers := by
        cases h
        exact ⟨rfl, rfl, rfl, rfl⟩
      obtain ⟨hevents, hsp, hcallbacks, hworkers⟩ := hevents
      refine hc.carried hinv h (fun w m heq => by cases heq) hworkers (by rw [hevents]; exact id)
        (hcallbacks ▸ hc.callback) fun k' hk' => ?_
      rw [hsp] at hk' ⊢
      rcases pollReady_eq s.conn.sp k events with heq | ⟨error, heq⟩
      · rw [heq] at hk' ⊢
        exact hc.socket k' hk'
      · rw [heq, SOCK.setSocketEvent, Slots.get_set] at hk'
        split at hk'
        next hkk =>
          rw [(beginIf_complete _).1] at hk'
          rw [hsame hk']
          exact hc.socket k' (hkk ▸ hk')
        next hkk =>
          rw [heq, SOCK.setSocketEvent, Slots.get_set, if_neg hkk]
          exact hc.socket k' hk'
    | pollTimeout k =>
      cases h
      refine hc.carried (a := .pollTimeout k) hinv rfl (fun w m heq => by cases heq) rfl id hc.callback fun k' hk' => ?_
      unfold pollTimeout at hk' ⊢
      simp only [Slots.get_set] at hk' ⊢
      split at hk'
      · rw [(beginIf_complete _).1] at hk'
        exact absurd hk' hok
      next hkk =>
        rw [if_neg hkk]
        exact hc.socket k' hk'
    | handle k =>
      have hstep := h
      simp only [asyncStep] at hstep
      split at hstep <;> cases hstep
      next x type error sp hhandle =>
        obtain ⟨_, _, harg, _, herror, hsp⟩ := handleSocketEvent_some hinv.socket hhandle
        refine hc.carried hinv h (fun w m heq => by cases heq) rfl id (fun cb hcb hcbe hunstored => ?_) fun k' hk' => ?_
        · rcases List.mem_cons.mp hcb with rfl | hcb
          · obtain rfl : x = e := hcbe
            exact herror.trans (hc.socket k harg).2
          · exact hc.callback cb hcb hcbe hunstored
        · change (sp.event.get k').arg = some e at hk'
          show (sp.event.get k').inEngine = false ∧ (sp.event.get k').error = Errno.ecanceled
          rw [hsp, SOCK.setSocketEvent, Slots.get_set] at hk' ⊢
          split at hk'
          · cases hk'
          next hkk =>
            rw [if_neg hkk]
            exact hc.socket k' hk'
    | store cb =>
      have hstep := h
      simp only [asyncStep] at hstep
      split at hstep <;> cases hstep
      next hcb =>
        refine hc.carried hinv h (fun w m heq => by cases heq) rfl (fun hmarked => ?_)
          (fun cb' hcb' hcbe hunstored => ?_) hc.socket
        · by_cases hcbe : cb.event = e
          · subst hcbe
            have herror := hc.callback cb hcb.1 rfl hcb.2
            simp [Conn.setError, Conn.setEvent, asyncEventError, herror, Errno.ecanceled, Errno.econnreset]
          · rw [← hmarked]
            simp [Conn.setError, Conn.setEvent, Ne.symm hcbe]
        · rcases List.mem_cons.mp hcb' with rfl | hcb'
          · cases hunstored
          · exact hc.callback cb' (List.mem_of_mem_erase hcb') hcbe hunstored
    | _ => cases ha

end Cancelling

/-- An abort that finds an event where its mark lasts is not the one of the thread that brings this event back. -/
theorem Cancellable.ne_current (hsafe : Cancellable s current e) (hinv : AsyncInv s) (ha : s.aborts a = some current)
    (h : asyncStep s a = some s') : some e ≠ current := by
  rintro rfl
  cases a with
  | relock w =>
    simp only [AsyncSystem.aborts] at ha
    split at ha
    next st hst =>
      split at ha <;> cases ha
      next hwhy =>
      simp only [asyncStep, hst] at h
      split at h <;> cases h
      next hw =>
      have hheeds := hsafe.worker w hw rfl
      rw [hst] at hheeds
      cases st with
      | failed => exact hheeds.2.other (hinv.slot_of_worker hw (by rw [hst]; rfl))
      | inProgress => rcases hwhy.2 with hfail | ⟨hcomplete, _⟩ <;> contradiction
      | queued | complete | timedOut | killed | partialResult => exact hheeds.elim
    · cases ha
  | kill | handleAbort | enqueueFailure =>
    simp only [AsyncSystem.aborts] at ha
    split at ha <;> cases ha
  | enqueue connEvent allocs source =>
    cases connEvent with
    | none => cases ha
    | some x =>
      simp only [AsyncSystem.aborts] at ha
      split at ha <;> cases ha
  | _ => cases ha

/-- **The abort (proved).** -/
theorem Cancelling.of_abort (hsafe : Cancellable s current e) (hinv : AsyncInv s) (he : e ∈ s.processing)
    (ha : s.aborts a = some current) (h : asyncStep s a = some s') : Cancelling s' e s' := by
  have hother := hsafe.ne_current hinv ha h
  have hinv' := (asyncStep_effect hinv h).1
  have habort := asyncStep_aborts hinv ha h
  have hslot := hinv.slot_of_processing he
  have hactive : s'.conn.activeEvent.get (s.conn.classOf e) = some e := by
    rw [habort.conn.active, hslot, if_neg hother]
  obtain ⟨hstarted, hleft⟩ := hinv'.unfinished (hinv'.processing_of_slot hactive)
  have hmark : AbortHits s.conn current (s.conn.classOf e) → (s'.conn.events e).error = Errno.ecanceled := fun hhit =>
    habort.conn.cancelled _ e hhit hslot
  refine ⟨rfl, fun st err source hleave => ?_, hstarted, fun _ => habort.conn.problem, fun _ => ?_, fun w hw hwe => ?_,
    fun cb hcb hcbe hunstored => ?_, fun k hk => ?_⟩
  · have hended : e ∈ left s'.conn.log := List.mem_filterMap.mpr ⟨_, hleave, rfl⟩
    exact absurd hended hleft
  · rcases AsyncSystem.mem_processing.mp he with ⟨w, hw, hwe, hholding⟩ | ⟨cb, hcb, hcbe⟩ | ⟨k, hk⟩
    · have hheeds := hsafe.worker w hw hwe
      cases hst : w.stage with
      | blocked blockedOn =>
        exact .inr ⟨w, (habort.workers w (hwe ▸ hother)).mpr hw, hwe, blockedOn, hst⟩
      | destroying | starting | aborting | aborted =>
        rw [hst] at hheeds
        exact .inl (hmark hheeds)
      | processing | handshaking | submitting =>
        rw [hst] at hheeds
        exact hheeds.elim
      | returned st =>
        rw [hst] at hheeds hholding
        cases st with
        | failed => exact .inl (hmark hheeds)
        | inProgress => cases hholding
        | queued | complete | timedOut | killed | partialResult => exact hheeds.elim
    · exact .inl (hmark (hsafe.callback cb hcb hcbe).1)
    · exact .inl (hmark ((hsafe.engine k hk).of_linked hinv.socket hk hother hslot))
  · exact (hsafe.worker w ((habort.workers w (hwe ▸ hother)).mp hw) hwe).mono fun _ => trivial
  · have hstored := (hsafe.callback cb (habort.callbacks ▸ hcb) hcbe).2
    rw [hunstored] at hstored
    cases hstored
  · by_cases hhit : AbortHits s.conn current k
    · rw [habort.conn.killed k hhit]
      obtain ⟨_, _, herror, hin, _⟩ := beginIf_complete { s.conn.sp.event.get k with error := Errno.ecanceled }
      exact ⟨hin, herror⟩
    · rw [habort.conn.kept k hhit] at hk
      exact absurd (hsafe.engine k hk) hhit

end Invariant

/-! ### Its end -/

/-- The steps that a thread in this stage is from the end of an event it aborts. -/
def Stage.toEnd : Stage → ℕ
  | .destroying _ => 5
  | .starting | .blocked _ => 4
  | .aborting => 3
  | .aborted => 2
  | _ => 1

/-- **`e` is at most this many steps from its end.** -/
inductive ToEnd (s : AsyncSystem) (e : EventId) : ℕ → Prop
  | worker {stage : Stage} (hw : ⟨e, stage⟩ ∈ s.workers) (hholding : stage.holding = true) : ToEnd s e stage.toEnd
  | stored {cb : Callback} (hcb : cb ∈ s.callbacks) (heq : cb.event = e) (hstored : cb.stored = true) : ToEnd s e 6
  | unstored {cb : Callback} (hcb : cb ∈ s.callbacks) (heq : cb.event = e) (hstored : cb.stored = false) :
      ToEnd s e 7
  | linked {k : ConnEventClass} (harg : (s.conn.sp.event.get k).arg = some e) : ToEnd s e 8

theorem AsyncSystem.toEnd_of_processing {s : AsyncSystem} {e : EventId} (he : e ∈ s.processing) :
    ∃ n, ToEnd s e n := by
  rcases AsyncSystem.mem_processing.mp he with ⟨w, hw, rfl, hholding⟩ | ⟨cb, hcb, hcbe⟩ | ⟨k, hk⟩
  · exact ⟨_, .worker hw hholding⟩
  · cases hstored : cb.stored with
    | true => exact ⟨6, .stored hcb hcbe hstored⟩
    | false => exact ⟨7, .unstored hcb hcbe hstored⟩
  · exact ⟨8, .linked hk⟩

section Ending

variable {s₀ s s' : AsyncSystem} {e : EventId} {n : ℕ}

/-- A thread makes a step that brings its event nearer to its end. -/
theorem ToEnd.work {stage stage' : Stage} {m : StageMove} {c' : Conn} (hw : ⟨e, stage⟩ ∈ s.workers)
    (h : eventProcessStep s.conn e stage m = some (stage', c')) (hholding : stage'.holding = true)
    (hlt : stage'.toEnd < stage.toEnd) :
    ∃ a s', NotExpired e s a ∧ asyncStep s a = some s' ∧
      (EndedCancelled e s' ∨ ∃ m < stage.toEnd, ToEnd s' e m) := by
  refine ⟨.work ⟨e, stage⟩ m, { s with conn := c', workers := ⟨e, stage'⟩ :: s.workers.erase ⟨e, stage⟩ }, trivial, ?_,
    .inr ⟨_, hlt, .worker List.mem_cons_self hholding⟩⟩
  simp only [asyncStep, if_pos hw, h]

/-- **The event is brought nearer to its end (proved),** by the thread, the callback thread or the engine that has
it. -/
theorem ToEnd.next (hinv : AsyncInv s) (hc : Cancelling s₀ e s) (hplace : ToEnd s e n) :
    ∃ a s', NotExpired e s a ∧ asyncStep s a = some s' ∧ (EndedCancelled e s' ∨ ∃ m < n, ToEnd s' e m) := by
  cases hplace with
  | @worker stage hw hholding =>
    have hheeds := hc.worker _ hw rfl
    have hmark := hc.marked hinv hw rfl hholding
    cases stage with
    | destroying freeList => exact ToEnd.work (m := .destroy) hw rfl rfl (Nat.lt_succ_self 4)
    | starting =>
      have hmarked := hmark fun _ heq => by cases heq
      have htest : eventProcessStep s.conn e .starting .test = some (.aborting, s.conn) := by
        simp only [eventProcessStep, hmarked]
        rfl
      exact ToEnd.work hw htest rfl (Nat.lt_succ_self 3)
    | blocked blockedOn =>
      have hproblem := hc.problem (AsyncSystem.processing_of_worker hw hholding)
      have htest : eventProcessStep s.conn e (.blocked blockedOn) .test =
          some (.aborting, s.conn.setError e Errno.ecanceled) := by
        simp only [eventProcessStep, if_pos (Option.isSome_iff_ne_none.mpr hproblem)]
      exact ToEnd.work hw htest rfl (Nat.lt_succ_self 3)
    | aborting => exact ToEnd.work (m := .abort) hw rfl rfl (Nat.lt_succ_self 2)
    | aborted =>
      have hfinal := (abortStatus_final (s.conn.events e)).2
      refine ToEnd.work (m := .judge) hw rfl ?_ (Nat.lt_succ_self 1)
      cases hstatus : abortStatus (s.conn.events e) <;> first | rfl | exact absurd hstatus hfinal
    | processing | handshaking | submitting => exact hheeds.elim
    | returned st =>
      cases st with
      | failed =>
        have hmarked := hmark fun _ heq => by cases heq
        have hstatus : (s.conn.events e).status = .failed :=
          ((hinv.returned _ hw .failed rfl).resolve_left fun heq => by cases heq).2
        have hstep : asyncStep s (.relock ⟨e, .returned .failed⟩) =
            some ({ s with workers := s.workers.erase ⟨e, .returned .failed⟩ }.outcome
              (connEventsProcessRelock s.conn e .failed)) := if_pos hw
        obtain ⟨xs, _, hlog⟩ := connEventsProcessRelock_left s.conn e .failed
        refine ⟨.relock ⟨e, .returned .failed⟩, _, trivial, hstep, .inl ⟨(s.conn.events e).source, ?_⟩⟩
        rw [AsyncSystem.outcome_conn, hlog, if_neg (fun heq => by cases heq), hstatus, hmarked]
        exact List.mem_append_right _ List.mem_cons_self
      | inProgress => cases hholding
      | queued | complete | timedOut | killed | partialResult => exact hheeds.elim
  | @stored cb hcb hcbe hstored =>
    subst hcbe
    refine ⟨.enter cb, _, trivial, if_pos ⟨hcb, hstored⟩, .inr ⟨5, by decide, ?_⟩⟩
    show ToEnd _ _ (Stage.destroying s.conn.transaction.freeList).toEnd
    exact .worker List.mem_cons_self rfl
  | @unstored cb hcb hcbe hunstored =>
    exact ⟨.store cb, _, trivial, if_pos ⟨hcb, hunstored⟩, .inr ⟨6, by decide, .stored List.mem_cons_self hcbe rfl⟩⟩
  | @linked k harg =>
    have hbegun : (s.conn.sp.event.get k).begun = 1 := by
      rw [(hinv.socket k).busy (by rw [harg]; simp), (hc.socket k harg).1]
      rfl
    have hhandle : handleSocketEvent s.conn.sp k = some (e, (s.conn.sp.event.get k).type,
        (s.conn.sp.event.get k).error, s.conn.sp.setSocketEvent k
          (seUnlinkCe { s.conn.sp.event.get k with begun := 0 })) := by
      simp only [handleSocketEvent, hbegun, harg]
      rfl
    have hstep : asyncStep s (.handle k) = some { s with
        conn := { s.conn with sp := s.conn.sp.setSocketEvent k (seUnlinkCe { s.conn.sp.event.get k with begun := 0 }) }
        callbacks := ⟨e, (s.conn.sp.event.get k).type, (s.conn.sp.event.get k).error, false⟩ :: s.callbacks } := by
      simp only [asyncStep, hhandle]
    exact ⟨.handle k, _, trivial, hstep, .inr ⟨7, by decide, .unstored List.mem_cons_self rfl rfl⟩⟩

/-- **From every state some steps end the event, cancelled (proved).** -/
theorem Cancelling.ending (hc : Cancelling s₀ e s) (hinv : AsyncInv s) :
    ∃ u, ReachableVia (enabled asyncStep) (NotExpired e) s u ∧ EndedCancelled e u := by
  rcases hinv.processing_or_left hc.started with he | hleft
  · obtain ⟨n, hplace⟩ := AsyncSystem.toEnd_of_processing he
    refine ReachableVia.of_rank (R := fun n s => AsyncInv s ∧ Cancelling s₀ e s ∧ ToEnd s e n) ?_ n ⟨hinv, hc, hplace⟩
    rintro n s ⟨hinv, hc, hplace⟩
    obtain ⟨a, s', hok, hstep, hnext⟩ := hplace.next hinv hc
    refine ⟨a, s', hok, hstep, hnext.imp_right ?_⟩
    rintro ⟨m, hm, hplace'⟩
    exact ⟨m, hm, (asyncStep_effect hinv hstep).1, hc.step hinv hok hstep, hplace'⟩
  · obtain ⟨entry, hmem, hentry⟩ := List.mem_filterMap.mp hleft
    cases entry <;> cases hentry
    next st err source =>
      obtain ⟨rfl, rfl⟩ := hc.ends st err source hmem
      exact ⟨s, .init, source, hmem⟩

end Ending

/-! ### Every run -/

/-- **An event that the abort finds where its mark lasts stays cancelled (proved),** along every run in which the poll
thread does not find it expired. -/
theorem reachable_staysCancelled {s₀ s s' t : AsyncSystem} {a : AsyncAction} {current : Option EventId}
    {k : ConnEventClass} {e : EventId} (hinit : s₀.Initial) (hs : Reachable (enabled asyncStep) s₀ s)
    (hactive : s.conn.activeEvent.get k = some e) (ha : s.aborts a = some current) (hsafe : Cancellable s current e)
    (hstep : asyncStep s a = some s') (hrun : ReachableVia (enabled asyncStep) (NotExpired e) s' t) :
    StaysCancelled e s' t := by
  have hinv := asyncInv_reachable hinit hs
  have hstart := Cancelling.of_abort hsafe hinv (hinv.processing_of_slot hactive) ha hstep
  obtain ⟨hinv', hc⟩ : AsyncInv t ∧ Cancelling s' e t := by
    refine hrun.invariant (P := fun t => AsyncInv t ∧ Cancelling s' e t)
      ⟨(asyncStep_effect hinv hstep).1, hstart⟩ ?_
    rintro u a u' ⟨hinv, hc⟩ hok hstep
    exact ⟨(asyncStep_effect hinv hstep).1, hc.step hinv hok hstep⟩
  exact ⟨hc.calls, fun k hk => (hc.socket k hk).1, hc.ends, hc.ending hinv'⟩

/-- The callback of a killed read, to the end of the read. -/
def cancelledRun : List AsyncAction :=
  [.handle .receive, .store ⟨0, .readable, Errno.ecanceled, false⟩, .enter ⟨0, .readable, Errno.ecanceled, true⟩] ++
  processRun 0 [(.destroying [], .destroy), (.starting, .test), (.aborting, .abort), (.aborted, .judge)] .failed

theorem cancelledRun_ends : ((runFrom asyncStep (AsyncSystem.new (some 3)) waitingRead).bind fun s =>
    (asyncStep s (.kill ⟨0, 9⟩)).bind fun s' => (runFrom asyncStep s' cancelledRun).map fun t =>
      ((s.waiting, s.workers, s.callbacks), decide (.leave 0 .failed Errno.ecanceled ⟨0, 1⟩ ∈ t.conn.log))) =
    some ((⟨.asynchronousClient, none,
      { number := some 3, event := ⟨{}, ⟨some 0, .readable, 0, true, 0⟩, {}⟩ },
      ⟨none, some 0, none⟩, .read⟩, [], []), true) := by
  decide +kernel

/-- A read that waits in the engine stays cancelled. -/
theorem reachable_staysCancelled_read : ∃ s s' t : AsyncSystem, asyncStep s (.kill ⟨0, 9⟩) = some s' ∧
    StaysCancelled 0 s' t ∧ EndedCancelled 0 t := by
  obtain ⟨s, hs, hrest⟩ := Option.bind_eq_some_iff.mp cancelledRun_ends
  obtain ⟨s', hkill, hrest⟩ := Option.bind_eq_some_iff.mp hrest
  obtain ⟨t, ht, hobs⟩ := Option.map_eq_some_iff.mp hrest
  simp only [AsyncSystem.waiting, Prod.mk.injEq, Waiting.mk.injEq, decide_eq_true_eq] at hobs
  obtain ⟨⟨⟨hstate, hproblem, hsp, hactive, htype⟩, hworkers, hcallbacks⟩, hleave⟩ := hobs
  have ha : s.aborts (.kill ⟨0, 9⟩) = some none := by
    simp only [AsyncSystem.aborts, hstate]
  have hhit : AbortHits s.conn none .receive := by
    refine ⟨hproblem, by rw [hsp]; simp, ?_, ?_, fun h => absurd h (by simp), fun _ => .inl ?_⟩ <;>
      rw [hactive] <;> simp [Slots.get]
  have hsafe : Cancellable s none 0 := by
    refine ⟨fun w hw => ?_, fun cb hcb => ?_, fun k hk => ?_⟩
    · rw [hworkers] at hw
      cases hw
    · rw [hcallbacks] at hcb
      cases hcb
    · rw [hsp] at hk
      cases k with
      | receive => exact hhit
      | connect | send => cases hk
  have hrun : ReachableVia (enabled asyncStep) (NotExpired 0) s' t := by
    refine reachableVia_of_forall (NotExpired 0) (fun a ha u => ?_) ht
    simp only [cancelledRun, processRun, List.map_cons, List.map_nil, List.mem_append, List.mem_cons,
      List.not_mem_nil, or_false] at ha
    rcases ha with (rfl | rfl | rfl) | (rfl | rfl | rfl | rfl) | rfl <;> trivial
  exact ⟨s, s', t, hkill, reachable_staysCancelled (k := .receive) (AsyncSystem.new_initial (some 3))
    (reachable_of_runFrom hs) (by rw [hactive]; rfl) ha hsafe hkill hrun, ⟨0, 1⟩, hleave⟩

/-- A read whose socket has become readable, and whose callback thread has not stored the engine's error. -/
def completedRead : List AsyncAction := waitingRead ++ [.pollReady .receive .ready, .handle .receive]

/-- The callback stores `0` over the mark, and the read goes on to its end. -/
def readOn : List AsyncAction :=
  [.store ⟨0, .readable, 0, false⟩, .enter ⟨0, .readable, 0, true⟩] ++
  processRun 0 [(.destroying [], .destroy), (.starting, .test), (.processing, .process (.receive [7])),
    (.processing, .process (.receive [8])), (.processing, .process (.deliver 2 2)),
    (.processing, .process (.ret 0 .none))] .complete

theorem readOn_completes : ((runFrom asyncStep (AsyncSystem.new (some 3)) completedRead).bind fun s =>
    (asyncStep s (.kill ⟨0, 9⟩)).bind fun s' => (runFrom asyncStep s' readOn).map fun t =>
      ((s.conn.state, s.conn.transaction.problem, s.conn.activeEvent),
        decide (.leave 0 .complete 0 ⟨0, 1⟩ ∈ t.conn.log))) =
    some ((.asynchronousClient, none, ⟨none, some 0, none⟩), true) := by
  decide +kernel

/-- **A cancellation can be lost (proved):** the engine's error is stored over the mark, the read receives twice,
delivers and ends complete. -/
theorem cancellation_lost : ¬ ∀ (s₀ s s' t : AsyncSystem) (a : AsyncAction) (current : Option EventId)
    (k : ConnEventClass) (e : EventId), s₀.Initial → Reachable (enabled asyncStep) s₀ s →
    s.conn.activeEvent.get k = some e → k ≠ .connect → some e ≠ current → s.conn.transaction.problem = none →
    s.aborts a = some current → asyncStep s a = some s' → Reachable (enabled asyncStep) s' t →
    StaysCancelled e s' t := by
  intro hall
  obtain ⟨s, hs, hrest⟩ := Option.bind_eq_some_iff.mp readOn_completes
  obtain ⟨s', hkill, hrest⟩ := Option.bind_eq_some_iff.mp hrest
  obtain ⟨t, ht, hobs⟩ := Option.map_eq_some_iff.mp hrest
  simp only [Prod.mk.injEq, decide_eq_true_eq] at hobs
  obtain ⟨⟨hstate, hproblem, hactive⟩, hleave⟩ := hobs
  have ha : s.aborts (.kill ⟨0, 9⟩) = some none := by
    simp only [AsyncSystem.aborts, hstate]
  have hstays := hall _ s s' t (.kill ⟨0, 9⟩) none .receive 0 (AsyncSystem.new_initial (some 3))
    (reachable_of_runFrom hs) (by rw [hactive]; rfl) (by simp) (by simp) hproblem ha hkill (reachable_of_runFrom ht)
  obtain ⟨hstatus, _⟩ := hstays.ends _ _ _ hleave
  cases hstatus

end Connio
