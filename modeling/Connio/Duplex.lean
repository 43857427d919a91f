import Connio.EngineInv
import Connio.LockFrame

/-!
# A send and a receive event at the same time

A blocked event is put into the `SocketEvent` of the direction the transport is blocked on, not of its own
class, so two active events can ask for the same one.

* `OtherStep`, `asyncStep_other` — what every step leaves alone but those of a thread that processes an
  event;
* `AsyncSystem.Heading` — the `SocketEvent` an event waits in or is about to be put into;
* `AnswerApart` — the transport does not block an event in the direction the other one is blocked in;
* `reachable_noCollision` — **PROVED**: along such answers `SocketEventWaitEx` never fails with `EBUSY`,
  and the first other answer leads to such a failure.
-/

namespace Connio

open Connio.Lib

/-! ### The other steps -/

/-- **What every step leaves alone but the steps of a thread that processes an event.** -/
structure OtherStep (s s' : AsyncSystem) : Prop where
  number : s'.conn.sp.number = s.conn.sp.number ∨ s'.conn.sp.number = none
  sslConn : s'.conn.sp.sslConn = s.conn.sp.sslConn
  arg : ∀ k, (s'.conn.sp.event.get k).arg = (s.conn.sp.event.get k).arg ∨
    (s'.conn.sp.event.get k).arg = none
  receiveBuffer : s'.conn.receiveBuffer = s.conn.receiveBuffer
  problem : s.conn.transaction.problem ≠ none → s'.conn.transaction.problem ≠ none ∨
    s.conn.state = .asynchronousEngineComplete
  calls : calls s'.conn.log = calls s.conn.log
  /-- a thread that begins to process an event has a free list to destroy -/
  workers : ∀ w ∈ s'.workers, w ∈ s.workers ∨ ∃ freeList, w.stage = .destroying freeList

section Other

variable {s s' : AsyncSystem}

/-- A hold of the event lock. -/
theorem OtherStep.of_lock (h : LockFrame s.conn s'.conn)
    (hw : ∀ w ∈ s'.workers, w ∈ s.workers ∨ ∃ freeList, w.stage = .destroying freeList) :
    OtherStep s s' :=
  ⟨h.number, h.sslConn, fun k => .inl (h.arg k), h.receiveBuffer, fun hp => .inl (h.problem hp), h.calls,
    hw⟩

theorem outcome_workers (s : AsyncSystem) (r : Outcome × Conn) :
    ∀ w ∈ (s.outcome r).workers, w ∈ s.workers ∨ ∃ freeList, w.stage = .destroying freeList := by
  obtain ⟨o, c⟩ := r
  intro w hw
  rcases o with ⟨e, freeList⟩ | (_ | _)
  · rcases List.mem_cons.mp hw with rfl | hw
    · exact .inr ⟨freeList, rfl⟩
    · exact .inl hw
  · exact .inl hw
  · exact .inl hw

/-- Only the socket events change. -/
theorem OtherStep.of_socket (hc : s'.conn = { s.conn with sp := s'.conn.sp })
    (hsp : s'.conn.sp = { s.conn.sp with event := s'.conn.sp.event })
    (harg : ∀ k, (s'.conn.sp.event.get k).arg = (s.conn.sp.event.get k).arg ∨
      (s'.conn.sp.event.get k).arg = none) (hw : s'.workers = s.workers) : OtherStep s s' := by
  refine ⟨.inl ?_, ?_, harg, ?_, fun hp => .inl ?_, ?_, fun w h => .inl (hw ▸ h)⟩
  · rw [hsp]
  · rw [hsp]
  · rw [hc]
  · rw [hc]
    exact hp
  · rw [hc]

theorem connEventFreeResources_lockFrame (c : Conn) (e : EventId) :
    LockFrame c (connEventFreeResources c e) := by
  unfold connEventFreeResources
  simp only []
  split
  · exact (LockFrame.refl c).setEvent e _
  split
  · split
    · exact ((LockFrame.refl c).setEvent e _).note rfl
    · exact .refl c
  split
  · split
    · exact ((LockFrame.refl c).setEvent e _).note rfl
    · exact .refl c
  · exact .refl c

theorem connEventFreeListDestroy_lockFrame (l : List EventId) : ∀ c : Conn,
    LockFrame c (connEventFreeListDestroy c l) := by
  induction l with
  | nil => exact LockFrame.refl
  | cons e l ih =>
    intro c
    have hfree : LockFrame c (connEventFree c e) := (connEventFreeResources_lockFrame c e).note rfl
    exact hfree.trans (ih _)

theorem socketEvent_arg_of_set {sp : SOCK} {k : ConnEventClass} {se : SocketEvent}
    (h : se.arg = (sp.event.get k).arg ∨ se.arg = none) (k' : ConnEventClass) :
    ((sp.event.set k se).get k').arg = (sp.event.get k').arg ∨ ((sp.event.set k se).get k').arg = none := by
  rw [Slots.get_set]
  split
  next hk => exact hk ▸ h
  · exact .inl rfl

/-- **Every step but those of a thread that processes an event (proved).** -/
theorem asyncStep_other {a : AsyncAction} (hinv : AsyncInv s) (h : asyncStep s a = some s')
    (hwork : ∀ w m, a ≠ .work w m) : OtherStep s s' := by
  have hsame : ∀ c', LockFrame s.conn c' → OtherStep s { s with conn := c' } := fun c' hc =>
    .of_lock hc fun w hw => .inl hw
  have hplain : ∀ c', c'.sp = s.conn.sp → c'.receiveBuffer = s.conn.receiveBuffer →
      c'.transaction.problem = s.conn.transaction.problem → calls c'.log = calls s.conn.log →
      LockFrame s.conn c' := fun c' h1 h2 h3 h4 => .of_same h1 h2 h3 h4
  have hcomplete : ∀ {k : ConnEventClass} {error : Errno},
      (beginIf ({ s.conn.sp.event.get k with error := error } : SocketEvent).complete).arg =
        (s.conn.sp.event.get k).arg := (beginIf_complete _).1
  cases a with
  | work w m => exact absurd rfl (hwork w m)
  | alloc e ce =>
    simp only [asyncStep] at h
    split at h <;> cases h
    exact .of_lock (((LockFrame.refl _).setEvent e ce).note rfl) fun w hw => .inl hw
  | enqueue connEvent allocs source =>
    simp only [asyncStep] at h
    split at h <;> cases h
    unfold AsyncSystem.enqueue
    simp only []
    split
    next r hr =>
      refine .of_lock ?_ (outcome_workers _ r)
      rw [AsyncSystem.outcome_conn]
      exact (eventEnqueue_run s.conn hr).frame
    · cases connEvent with
      | none => exact hsame _ (.refl _)
      | some e => exact .of_lock ((LockFrame.refl _).note rfl) fun w hw => .inl hw
  | enqueueFailure errno source =>
    cases h
    exact hsame _ (eventEnqueueFailure_run _ errno source).frame
  | submit qFailure client source =>
    simp only [asyncStep] at h
    split at h <;> cases h
    next r hr =>
      refine .of_lock ?_ (outcome_workers _ r)
      rw [AsyncSystem.outcome_conn]
      exact (eventsSubmit_run s.conn hr).frame
    · exact .of_lock (.refl _) fun w hw => .inl hw
  | kill source =>
    cases h
    exact hsame _ (connKillEx_run _ source).frame
  | handleAbort source =>
    cases h
    exact hsame _ (connHandleConnectionsAbort_run _ source).frame
  | writeAbort source =>
    cases h
    exact hsame _ (eventQueueAbort_run _ none _).frame
  | shuttingDown =>
    cases h
    exact hsame _ (hplain _ rfl rfl rfl rfl)
  | waitForSubmit wait =>
    cases h
    exact hsame _ (hplain _ rfl rfl rfl rfl)
  | sendBuffer async used =>
    cases h
    exact hsame _ (writeClientData_run _ async used).frame
  | free e =>
    have hfree : LockFrame s.conn (connEventFree s.conn e) :=
      (connEventFreeResources_lockFrame s.conn e).note rfl
    simp only [asyncStep] at h
    split at h
    · cases h
      exact .of_lock hfree fun w hw => .inl hw
    · split at h <;> cases h
      exact .of_lock hfree fun w hw => .inl hw
  | relock w =>
    simp only [asyncStep] at h
    split at h
    next st hst =>
      split at h <;> cases h
      refine .of_lock ?_ fun w' hw' => ?_
      · rw [AsyncSystem.outcome_conn]
        exact (connEventsProcessRelock_run s.conn w.event st).frame
      · exact (outcome_workers _ _ w' hw').imp_left List.mem_of_mem_erase
    · cases h
  | pollReady k events =>
    cases h
    rcases pollReady_eq s.conn.sp k events with heq | ⟨error, heq⟩
    · exact .of_socket rfl (by rw [heq]) (fun k' => .inl (by rw [heq])) rfl
    · refine .of_socket rfl (by rw [heq]; rfl) (fun k' => ?_) rfl
      show ((pollReady s.conn.sp k events).event.get k').arg = _ ∨ _
      rw [heq]
      exact socketEvent_arg_of_set (.inl hcomplete) k'
  | pollTimeout k =>
    cases h
    exact .of_socket rfl rfl (socketEvent_arg_of_set (.inl hcomplete)) rfl
  | handle k =>
    simp only [asyncStep] at h
    split at h <;> cases h
    next heq =>
      obtain ⟨_, _, _, _, _, hsp⟩ := handleSocketEvent_some hinv.socket heq
      refine .of_socket rfl (by rw [hsp]; rfl) (fun k' => ?_) rfl
      rw [hsp]
      exact socketEvent_arg_of_set (.inr rfl) k'
  | store cb =>
    simp only [asyncStep] at h
    split at h <;> cases h
    exact .of_lock ((LockFrame.refl _).setEvent _ _) fun w hw => .inl hw
  | enter cb =>
    simp only [asyncStep] at h
    split at h <;> cases h
    refine .of_lock ?_ (outcome_workers _ _)
    rw [AsyncSystem.outcome_conn]
    exact (connEventsProcess_run s.conn _).frame
  | prepare =>
    simp only [asyncStep] at h
    split at h <;> cases h
    next hmem =>
    exact ⟨.inl rfl, rfl, fun k => .inl rfl, rfl, fun _ => .inr (hinv.complete_of_starting hmem), rfl,
      fun w hw => .inl hw⟩
  | destroy x =>
    simp only [asyncStep] at h
    split at h
    · split at h <;> cases h
      exact .of_lock (connEventFreeListDestroy_lockFrame _ _) fun w hw => .inl hw
    · cases h
  | call x =>
    simp only [asyncStep] at h
    split at h
    · split at h <;> cases h
      exact .of_lock ((LockFrame.refl s.conn).note rfl) fun w hw => .inl hw
    · cases h

/-- What the hold of the event lock of a step may do. -/
def AsyncAction.lockKind : AsyncAction → LockKind
  | .enqueue _ _ _ | .enqueueFailure _ _ => .queueing
  | .sendBuffer _ _ => .writing
  | .relock _ => .finishing
  | _ => .plain

/-- A hold of the event lock, or what the queue does not see. -/
inductive StepRun (kind : LockKind) (c c' : Conn) : Prop
  | lock (run : LockRun kind c c')
  | quiet (quiet : Quiet c c')

/-- **Every step but the end of a transaction (proved).** -/
theorem asyncStep_run {a : AsyncAction} (hinv : AsyncInv s) (h : asyncStep s a = some s')
    (ha : a ≠ .prepare) : StepRun a.lockKind s.conn s'.conn := by
  have hrefl : ∀ kind, StepRun kind s.conn s.conn := fun kind => .lock (.refl s.conn)
  cases a with
  | prepare => exact absurd rfl ha
  | alloc e ce =>
    simp only [asyncStep] at h
    split at h <;> cases h
    exact .lock (((LockRun.refl s.conn).setEvent e ce).note rfl)
  | enqueue connEvent allocs source =>
    simp only [asyncStep] at h
    split at h <;> cases h
    unfold AsyncSystem.enqueue
    simp only []
    split
    next r hr =>
      rw [AsyncSystem.outcome_conn]
      exact .lock (eventEnqueue_run s.conn hr)
    · cases connEvent with
      | none => exact hrefl _
      | some e => exact .lock ((LockRun.refl s.conn).note (x := .refuse e) rfl)
  | enqueueFailure errno source =>
    cases h
    exact .lock (eventEnqueueFailure_run s.conn errno source)
  | submit qFailure client source =>
    simp only [asyncStep] at h
    split at h <;> cases h
    next r hr =>
      rw [AsyncSystem.outcome_conn]
      exact .lock (eventsSubmit_run s.conn hr)
    · exact hrefl _
  | kill source =>
    cases h
    exact .lock (connKillEx_run _ source)
  | handleAbort source =>
    cases h
    exact .lock (connHandleConnectionsAbort_run _ source)
  | writeAbort source =>
    cases h
    exact .lock (eventQueueAbort_run _ none _)
  | sendBuffer async used =>
    cases h
    exact .lock (writeClientData_run _ async used)
  | shuttingDown | waitForSubmit =>
    cases h
    exact .quiet ⟨rfl, rfl, rfl, rfl, rfl, [], by simp, rfl⟩
  | pollReady | pollTimeout =>
    cases h
    exact .quiet (.socket s.conn _)
  | free e =>
    simp only [asyncStep] at h
    split at h
    · cases h
      exact .quiet (connEventFree_quiet _ e)
    split at h <;> cases h
    exact .quiet (connEventFree_quiet _ e)
  | work w m =>
    simp only [asyncStep] at h
    split at h
    · split at h <;> cases h
      next hw => exact .quiet (eventProcessStep_local hinv.socket hw).quiet
    · cases h
  | relock w =>
    simp only [asyncStep] at h
    split at h
    next st _ =>
      split at h <;> cases h
      rw [AsyncSystem.outcome_conn]
      exact .lock (connEventsProcessRelock_run s.conn w.event st)
    · cases h
  | handle k =>
    simp only [asyncStep] at h
    split at h <;> cases h
    exact .quiet (.socket s.conn _)
  | store cb =>
    simp only [asyncStep] at h
    split at h <;> cases h
    exact .quiet (.setError s.conn _ _)
  | enter cb =>
    simp only [asyncStep] at h
    split at h <;> cases h
    rw [AsyncSystem.outcome_conn]
    exact .lock (connEventsProcess_run s.conn _)
  | destroy x =>
    simp only [asyncStep] at h
    split at h
    · split at h <;> cases h
      exact .quiet (connEventFreeListDestroy_quiet _ _)
    · cases h
  | call x =>
    simp only [asyncStep] at h
    split at h
    · split at h <;> cases h
      exact .quiet ((Quiet.refl s.conn).note rfl)
    · cases h

/-- What is new in the history ends no event. -/
theorem left_eq_nil_of_append {xs log log' : List LogEntry} (hlog : xs ++ log = log') (hleft : left log' = left log) :
    left xs = [] := by
  rw [← hlog, left, List.filterMap_append] at hleft
  exact List.append_left_eq_self.mp hleft

/-- A thread that comes back from `ConnEventProcess` with a result writes it to the history. -/
theorem connEventsProcessRelock_left (c : Conn) (e : EventId) (status : ConnEventStatus) :
    ∃ xs, left xs = [] ∧ (connEventsProcessRelock c e status).2.log =
      xs ++ (if status = .inProgress then c.log else
        .leave e (c.events e).status (c.events e).error (c.events e).source :: c.log) := by
  unfold connEventsProcessRelock
  split
  · have hrun := connEventsProcessLoop_run c none
    obtain ⟨xs, hlog⟩ := hrun.suffix
    exact ⟨xs, left_eq_nil_of_append hlog (hrun.left (by decide)), hlog.symm⟩
  · have hafter : LockRun .plain ((connEventInProgressClear c e).note
        (.leave e (c.events e).status (c.events e).error (c.events e).source))
          (connEventsProcessLoop (connEventsProcessResult c e) none).2 :=
      (((captureStats_run _ e).trans (handleErrors_run _ e)).trans (connEventFreeListAdd_run _ e)).trans
        (connEventsProcessLoop_run _ none)
    obtain ⟨xs, hlog⟩ := hafter.suffix
    exact ⟨xs, left_eq_nil_of_append hlog (hafter.left (by decide)), hlog.symm⟩

/-- **Only a thread that comes back with a result ends an event (proved).** -/
theorem asyncStep_leaves {a : AsyncAction} (hinv : AsyncInv s) (h : asyncStep s a = some s') :
    ∃ xs, left xs = [] ∧ (s'.conn.log = xs ++ s.conn.log ∨ ∃ w st, a = .relock w ∧ w ∈ s.workers ∧
      w.stage = .returned st ∧ st.Final ∧ (s.conn.events w.event).status = st ∧
      s'.conn.log = xs ++ .leave w.event (s.conn.events w.event).status (s.conn.events w.event).error
        (s.conn.events w.event).source :: s.conn.log) := by
  by_cases hprepare : a = .prepare
  · subst hprepare
    simp only [asyncStep] at h
    split at h <;> cases h
    exact ⟨[.prepare (prepareForCallback s.conn).1], rfl, .inl rfl⟩
  cases asyncStep_run hinv h hprepare with
  | quiet quiet =>
    obtain ⟨xs, hxs, hlog⟩ := quiet.log
    refine ⟨xs, List.filterMap_eq_nil_iff.mpr fun x hx => ?_, .inl hlog⟩
    have hq := hxs x hx
    cases x <;> first | rfl | cases hq
  | lock run =>
    by_cases hkind : a.lockKind = .finishing
    · obtain ⟨w, rfl⟩ : ∃ w, a = .relock w := by
        cases a with
        | relock w => exact ⟨w, rfl⟩
        | _ => cases hkind
      simp only [asyncStep] at h
      split at h
      next st hst =>
        split at h <;> cases h
        next hw =>
          rw [AsyncSystem.outcome_conn]
          obtain ⟨xs, hxs, hlog⟩ := connEventsProcessRelock_left s.conn w.event st
          refine ⟨xs, hxs, ?_⟩
          rcases hinv.returned w hw st hst with rfl | ⟨hfinal, hstatus⟩
          · -- a thread whose event is in the engine ends nothing
            exact .inl hlog
          · rw [if_neg hfinal.2] at hlog
            exact .inr ⟨w, st, rfl, hw, hst, hfinal, hstatus, hlog⟩
      · cases h
    · obtain ⟨xs, hlog⟩ := run.suffix
      exact ⟨xs, left_eq_nil_of_append hlog (run.left hkind), .inl hlog.symm⟩

/-- An event keeps its type. -/
theorem asyncStep_typeOf {a : AsyncAction} (hinv : AsyncInv s) (h : asyncStep s a = some s')
    {e : EventId} (he : e ∈ allocated s.conn.log) : s'.conn.typeOf e = s.conn.typeOf e :=
  reachable_typeOf (asyncStep_effect hinv h).2.refines e he

end Other

/-! ### Where a blocked event goes -/

/-- The `SocketEvent` a thread is about to put its event into; after a problem it cancels the event
instead. -/
def Stage.direction (problem : Option AsyncProblem) : Stage → Option ConnEventClass
  | .blocked blockedOn =>
    if problem = none then socketEventSlot (sockEventTranslate blockedOn) else none
  | .submitting blockedOn => socketEventSlot (sockEventTranslate blockedOn)
  | _ => none

/-- **`e` waits in `SocketEvent` `k`, or its thread is about to put it there.** -/
def AsyncSystem.Heading (s : AsyncSystem) (e : EventId) (k : ConnEventClass) : Prop :=
  (s.conn.sp.event.get k).arg = some e ∨
    ∃ w ∈ s.workers, w.event = e ∧ w.stage.direction s.conn.transaction.problem = some k

/-- **The transport's answers that keep two active events apart:** `socketEventProcess` does not return
`EWOULDBLOCK` for an event in a direction in which the other active event is blocked already; after a
problem, or without a socket, it may. -/
def AnswerApart (s : AsyncSystem) : AsyncAction → Prop
  | .work _ (.process (.ret err blockedOn)) => err = Errno.ewouldblock →
      s.conn.transaction.problem = none → s.conn.sp.number ≠ none →
      ∀ k, socketEventSlot (sockEventTranslate blockedOn) = some k → ∀ x, ¬ s.Heading x k
  | _ => True

/-- No event waits in `SocketEvent` `k` or is about to be put there. -/
instance (s : AsyncSystem) (k : ConnEventClass) : Decidable (∀ x, ¬ s.Heading x k) :=
  decidable_of_iff ((s.conn.sp.event.get k).arg = none ∧
      ∀ w ∈ s.workers, w.stage.direction s.conn.transaction.problem ≠ some k) <| by
    constructor
    · rintro ⟨harg, hw⟩ x (hx | ⟨w, hmem, _, hdir⟩)
      · exact absurd (harg.symm.trans hx) (by simp)
      · exact hw w hmem hdir
    · refine fun h => ⟨?_, fun w hmem hdir => h w.event (.inr ⟨w, hmem, rfl, hdir⟩)⟩
      exact Option.eq_none_iff_forall_ne_some.mpr fun x hx => h x (.inl hx)

instance (s : AsyncSystem) : (a : AsyncAction) → Decidable (AnswerApart s a)
  | .work _ (.process (.ret err blockedOn)) =>
    inferInstanceAs (Decidable (err = Errno.ewouldblock → s.conn.transaction.problem = none →
      s.conn.sp.number ≠ none → ∀ k ∈ socketEventSlot (sockEventTranslate blockedOn),
        ∀ x, ¬ s.Heading x k))
  | .alloc _ _ | .enqueue _ _ _ | .enqueueFailure _ _ | .submit _ _ _ | .kill _ | .handleAbort _
  | .writeAbort _ | .shuttingDown | .waitForSubmit _ | .sendBuffer _ _ | .free _ | .relock _
  | .pollReady _ _ | .pollTimeout _ | .handle _ | .store _ | .enter _ | .prepare | .destroy _
  | .call _ | .work _ .destroy | .work _ .test | .work _ .checkBuffer | .work _ (.handshake _ _)
  | .work _ (.submit _) | .work _ .abort | .work _ .judge | .work _ (.process .send)
  | .work _ (.process (.receive _)) | .work _ (.process (.deliver _ _))
  | .work _ (.process .ioCallback) | .work _ (.process .connWrite)
  | .work _ (.process (.transfer _)) | .work _ (.process (.connectStart _ _))
  | .work _ (.process .disconnectStart) | .work _ (.process (.shutdown _)) => .isTrue trivial

/-- **`SocketEventWaitEx` does not find the `SocketEvent` it selects linked to another event:** no thread
is about to get `EBUSY`. -/
def NoCollision (s : AsyncSystem) : Prop :=
  ∀ w ∈ s.workers, ∀ blockedOn, w.stage = .submitting blockedOn → ∀ epollErr, epollErr ≠ Errno.ebusy →
    (socketEventWaitEx s.conn.sp blockedOn w.event epollErr).1 ≠ Errno.ebusy

structure DuplexInv (s : AsyncSystem) : Prop where
  handshaking : ∀ w ∈ s.workers, w.stage = .handshaking →
    (s.conn.typeOf w.event).isHandshake = true
  apart : s.conn.sp.number ≠ none → ∀ k x y, s.Heading x k → s.Heading y k → x = y

section Heading

variable {s s' : AsyncSystem} {e x y : EventId} {k : ConnEventClass}

theorem Stage.direction_holding {problem : Option AsyncProblem} {stage : Stage}
    (h : stage.direction problem = some k) : stage.holding = true := by
  cases stage <;> first | rfl | cases h

/-- An event on its way into the engine is being processed. -/
theorem AsyncSystem.Heading.processing (h : s.Heading e k) : e ∈ s.processing := by
  rcases h with h | ⟨w, hw, rfl, hd⟩
  · exact AsyncSystem.processing_of_linked h
  · exact AsyncSystem.processing_of_worker hw (Stage.direction_holding hd)

/-- While a connect-class event is being processed no other event is. -/
theorem AsyncInv.connect_alone (hinv : AsyncInv s) (hx : x ∈ s.processing)
    (hc : s.conn.classOf x = .connect) (hy : y ∈ s.processing) : y = x := by
  have hsx := hinv.slot_of_processing hx
  have hsy := hinv.slot_of_processing hy
  rw [hc] at hsx
  obtain ⟨hr, hsend⟩ := hinv.queue.slot.connect_alone (show s.conn.activeEvent.connect ≠ none by
    rw [show s.conn.activeEvent.connect = some x from hsx]
    simp)
  cases hk : s.conn.classOf y with
  | connect =>
    rw [hk, hsx] at hsy
    exact (Option.some.inj hsy).symm
  | receive =>
    rw [hk] at hsy
    exact absurd (hsy.symm.trans hr) (by simp)
  | send =>
    rw [hk] at hsy
    exact absurd (hsy.symm.trans hsend) (by simp)

/-- A thread that has not been told to wait leaves its event out of the engine. -/
theorem AsyncInv.not_heading (hinv : AsyncInv s) {w : Worker} (hw : w ∈ s.workers)
    (hh : w.stage.holding = true) (hd : w.stage.direction s.conn.transaction.problem = none) :
    ∀ k, ¬ s.Heading w.event k := by
  intro k hk
  have hone := hinv.processing_le_one w.event
  have hcount := count_flatMap_erase hw Worker.owned w.event
  have hown : (Worker.owned w).count w.event = 1 := by
    rw [Worker.owned, Stage.owned, hh]
    simp
  simp only [AsyncSystem.processing, AsyncSystem.owned, List.count_append] at hone
  rcases hk with hk | ⟨w', hw', heq, hd'⟩
  · have : 0 < s.conn.sp.linked.count w.event := List.count_pos_iff.mpr (SOCK.mem_linked.mpr ⟨k, hk⟩)
    omega
  · have hne : w' ≠ w := by
      rintro rfl
      rw [hd] at hd'
      cases hd'
    exact hinv.event_ne hw ((List.mem_erase_of_ne hne).mpr hw') hh (Stage.direction_holding hd') heq

end Heading

/-! ### A thread that processes an event -/

section Work

variable {c c' : Conn} {e : EventId} {stage stage' : Stage} {m : StageMove}

theorem connEventFreeResources_sp (c : Conn) (e : EventId) : (connEventFreeResources c e).sp = c.sp := by
  unfold connEventFreeResources
  simp only []
  split
  · rfl
  split
  · split <;> rfl
  split
  · split <;> rfl
  · rfl

theorem clientBufferFree_sp (c : Conn) (e : EventId) : (clientBufferFree c e).sp = c.sp := by
  unfold clientBufferFree
  simp only []
  split <;> rfl

/-- Only a disconnect closes the socket when it completes. -/
theorem socketEventComplete_sp (h : c.classOf e ≠ .connect) : (socketEventComplete c e).sp = c.sp := by
  unfold socketEventComplete
  split
  · exact clientBufferFree_sp c e
  next ht => exact absurd (show c.classOf e = .connect by rw [Conn.classOf, ht]; rfl) h
  · rfl

theorem socketEventAbort_sp (h : c.classOf e ≠ .connect) : (socketEventAbort c e).sp = c.sp := by
  unfold socketEventAbort
  split
  case h_1 => exact clientBufferFree_sp c e
  case h_9 => rfl
  all_goals
    next ht => exact absurd (show c.classOf e = .connect by rw [Conn.classOf, ht]; rfl) h

theorem connEventFreeListDestroy_sp (l : List EventId) : ∀ c : Conn,
    (connEventFreeListDestroy c l).sp = c.sp := by
  induction l with
  | nil => exact fun _ => rfl
  | cons e l ih => exact fun c => (ih _).trans (connEventFreeResources_sp c e)

/-- What a step inside `socketEventProcess` of a send or a receive event does to the socket: nothing. -/
theorem processMove_sp {m : ProcessMove} {r : Option (Errno × SocketEventType)}
    (h : processMove c e m = some (r, c')) (hc : c.classOf e ≠ .connect) :
    c'.sp = c.sp ∧ c'.typeOf e = c.typeOf e ∧
      ∀ err blockedOn, r = some (err, blockedOn) → m = .ret err blockedOn := by
  have hq := (processMove_frame (S := fun _ => True) h).1
  have ht : c'.typeOf e = c.typeOf e := congrFun hq.typeOf e
  have hclass : ∀ t, c.typeOf e = t → t.eventClass ≠ .connect := by
    rintro t rfl
    exact hc
  cases m <;> simp only [processMove] at h
  case send | ioCallback | connWrite | transfer | deliver =>
    split at h <;> cases h
    exact ⟨rfl, ht, fun _ _ hr => by cases hr⟩
  case receive =>
    split at h
    · cases h
      exact ⟨rfl, ht, fun _ _ hr => by cases hr⟩
    · split at h <;> cases h
      exact ⟨rfl, ht, fun _ _ hr => by cases hr⟩
  case connectStart =>
    split at h
    next hd => exact absurd rfl (hclass _ hd.1)
    · cases h
  case disconnectStart =>
    split at h
    next hd => exact absurd rfl (hclass _ hd.1)
    · cases h
  case shutdown =>
    split at h
    next hd => exact absurd rfl (hclass _ hd)
    · cases h
  case ret err blockedOn =>
    obtain ⟨r', hr', heq⟩ := Option.map_eq_some_iff.mp h
    cases heq
    refine ⟨rfl, ht, fun err' blockedOn' hr => ?_⟩
    cases hr
    unfold processReturn at hr'
    split at hr'
    next hd => exact absurd rfl (hclass _ hd)
    next hd => exact absurd rfl (hclass _ hd)
    next hd => exact absurd rfl (hclass _ hd)
    · split at hr'
      next hd => exact absurd hd hc
      · split at hr' <;> cases hr'
        rfl

/-- **What a step of a thread that processes a send or a receive event does:** its event goes into the
`SocketEvent` it was on its way to, and only an answer of the transport puts it on a new way. -/
structure DirectedStep (c : Conn) (e : EventId) (stage : Stage) (m : StageMove) (c' : Conn)
    (stage' : Stage) : Prop where
  number : c'.sp.number = c.sp.number
  arg : ∀ k y, (c'.sp.event.get k).arg = some y → (c.sp.event.get k).arg = some y ∨
    (y = e ∧ stage.direction c.transaction.problem = some k)
  direction : ∀ k, stage'.direction c.transaction.problem = some k →
    stage.direction c.transaction.problem = some k ∨ (c.transaction.problem = none ∧
      ∃ blockedOn, m = .process (.ret Errno.ewouldblock blockedOn) ∧
        socketEventSlot (sockEventTranslate blockedOn) = some k)

theorem DirectedStep.of_same (hsp : c'.sp = c.sp)
    (hd : stage'.direction c.transaction.problem = none) : DirectedStep c e stage m c' stage' :=
  ⟨by rw [hsp], fun _ _ hy => .inl (hsp ▸ hy), fun _ hk => absurd (hd.symm.trans hk) (by simp)⟩

/-- `socketEventProcess` has returned. -/
theorem processReturned_directed {c₁ : Conn} {err : Errno} {blockedOn : SocketEventType}
    (hsp : c₁.sp = c.sp) (hc : c₁.classOf e ≠ .connect)
    (hm : err = Errno.ewouldblock → m = .process (.ret Errno.ewouldblock blockedOn))
    (h : processReturned c₁ e (err, blockedOn) = (stage', c')) :
    DirectedStep c e stage m c' stage' := by
  unfold processReturned at h
  simp only [] at h
  split at h
  · cases h
    exact .of_same ((connEventFreeResources_sp _ e).trans ((socketEventComplete_sp hc).trans hsp)) rfl
  · split at h <;> cases h
    next hblock =>
      refine ⟨by rw [hsp], fun k y hy => .inl (hsp ▸ hy), fun k hk => .inr ?_⟩
      simp only [Stage.direction] at hk
      split at hk
      next hp => exact ⟨hp, blockedOn, hm hblock, hk⟩
      · cases hk
    · exact .of_same hsp rfl

/-- `SocketEventWaitEx` links the event in the `SocketEvent` it selects, or none. -/
theorem socketEventWaitEx_arg {sp sp' : SOCK} {blockedOn : SocketEventType} {epollErr err : Errno}
    (hok : sp.Ok) (hw : socketEventWaitEx sp blockedOn e epollErr = (err, sp')) :
    sp'.number = sp.number ∧ ∀ k y, (sp'.event.get k).arg = some y → (sp.event.get k).arg = some y ∨
      (y = e ∧ socketEventSlot (sockEventTranslate blockedOn) = some k) := by
  rcases socketEventWaitEx_spec hok hw with ⟨_, k, _, _, _, rfl, hok'⟩ | ⟨_, rfl | ⟨k, _, rfl, _⟩⟩
  · refine ⟨rfl, fun k' y hy => ?_⟩
    have hslot := (hok' k').slot
    simp only [SOCK.setSocketEvent, Slots.get_set] at hy hslot
    by_cases hk : k' = k
    · rw [if_pos hk] at hy
      rw [if_pos hk] at hslot
      exact .inr ⟨(Option.some.inj hy).symm, (hslot (by simp)).2⟩
    · rw [if_neg hk] at hy
      exact .inl hy
  · exact ⟨rfl, fun k y hy => .inl hy⟩
  · refine ⟨rfl, fun k' y hy => ?_⟩
    simp only [SOCK.setSocketEvent, Slots.get_set] at hy
    by_cases hk : k' = k
    · rw [if_pos hk] at hy
      cases hy
    · rw [if_neg hk] at hy
      exact .inl hy

/-- **A step of a thread that processes a send or a receive event (proved).** -/
theorem eventProcessStep_directed (hok : c.sp.Ok) (hc : c.classOf e ≠ .connect)
    (hh : stage ≠ .handshaking) (h : eventProcessStep c e stage m = some (stage', c')) :
    DirectedStep c e stage m c' stage' := by
  have hnot : (c.typeOf e).isHandshake ≠ true := fun ht => by
    rw [Conn.classOf] at hc
    cases htype : c.typeOf e <;> rw [htype] at ht hc <;> first | exact hc rfl | cases ht
  cases eventProcessStep_cases h with
  | destroy freeList hresult =>
    cases hresult
    exact .of_same (connEventFreeListDestroy_sp freeList c) rfl
  | start hresult =>
    cases hresult
    refine .of_same rfl ?_
    split <;> rfl
  | move hmove hresult =>
    cases hresult
    exact .of_same (processMove_sp hmove hc).1 rfl
  | @processed _ r c₁ hmove hresult =>
    obtain ⟨err, blockedOn⟩ := r
    obtain ⟨hsp, ht, hm⟩ := processMove_sp hmove hc
    refine processReturned_directed hsp ?_ (fun herr => ?_) hresult
    · rw [Conn.classOf, ht]
      exact hc
    · rw [hm err blockedOn rfl, herr]
  | empty htype => exact absurd htype hnot
  | overflow htype => exact absurd htype hnot
  | handshake => exact absurd rfl hh
  | cancelled blockedOn _ hresult =>
    cases hresult
    exact .of_same rfl rfl
  | unproblematic blockedOn hproblem hresult =>
    cases hresult
    refine ⟨rfl, fun k y hy => .inl hy, fun k hk => .inl ?_⟩
    rw [Stage.direction, if_pos hproblem]
    exact hk
  | submit blockedOn epollErr hresult =>
    unfold submitToEngine at hresult
    simp only [] at hresult
    split at hresult <;> cases hresult
    all_goals
      next hw =>
        obtain ⟨hnumber, harg⟩ := socketEventWaitEx_arg hok hw
        exact ⟨hnumber, harg, fun k hk => by cases hk⟩
  | abort hresult =>
    cases hresult
    exact .of_same (socketEventAbort_sp hc) rfl
  | judge hresult =>
    cases hresult
    exact .of_same (connEventFreeResources_sp c e) rfl

end Work

/-! ### The invariant -/

section Invariant

variable {s s' : AsyncSystem}

/-- Only a handshake event gets to its SSL call. -/
theorem eventProcessStep_handshaking {c c' : Conn} {e : EventId} {stage : Stage} {m : StageMove}
    (h : eventProcessStep c e stage m = some (.handshaking, c')) :
    (c.typeOf e).isHandshake = true := by
  have hreturned : ∀ {c₁ : Conn} {r : Errno × SocketEventType},
      processReturned c₁ e r ≠ (.handshaking, c') := by
    intro c₁ r heq
    unfold processReturned at heq
    split at heq
    split at heq
    · cases heq
    · split at heq <;> cases heq
  cases eventProcessStep_cases h with
  | empty htype _ _ => exact htype
  | processed _ hresult | overflow _ _ hresult | handshake _ _ hresult => exact absurd hresult hreturned
  | start hresult =>
    have hstage := congrArg Prod.fst hresult
    simp only [] at hstage
    split at hstage <;> cases hstage
  | submit blockedOn epollErr hresult =>
    unfold submitToEngine at hresult
    simp only [] at hresult
    split at hresult <;> cases hresult
  | destroy _ hresult | move _ hresult | cancelled _ _ hresult | unproblematic _ _ hresult | abort hresult
    | judge hresult => cases hresult

/-- A step that no thread makes for its event. -/
theorem DuplexInv.other {a : AsyncAction} (hd : DuplexInv s) (hinv : AsyncInv s)
    (hother : OtherStep s s') (h : asyncStep s a = some s') : DuplexInv s' := by
  have hheading : ∀ x k, s'.Heading x k → s.Heading x k := by
    intro x k hx
    rcases hx with hx | ⟨w, hw, rfl, hdir⟩
    · rcases hother.arg k with harg | harg
      · exact .inl (harg ▸ hx)
      · exact absurd (harg.symm.trans hx) (by simp)
    · rcases hother.workers w hw with hw | ⟨freeList, hst⟩
      · refine .inr ⟨w, hw, rfl, ?_⟩
        cases hst : w.stage with
        | blocked blockedOn =>
          rw [hst] at hdir
          simp only [Stage.direction] at hdir ⊢
          split at hdir
          next hp' =>
            rw [if_pos]
            · exact hdir
            by_contra hp
            rcases hother.problem hp with hne | hcomplete
            · exact hne hp'
            · have hbusy := hinv.busy_of_slot (hinv.slot_of_worker hw (by rw [hst]; rfl))
              rw [hcomplete] at hbusy
              rcases hbusy with hbusy | hbusy <;> cases hbusy
          · cases hdir
        | submitting blockedOn =>
          rw [hst] at hdir
          exact hdir
        | _ =>
          rw [hst] at hdir
          cases hdir
      · rw [hst] at hdir
        cases hdir
  refine ⟨fun w hw hst => ?_, fun hn k x y hx hy => ?_⟩
  · rcases hother.workers w hw with hw | ⟨freeList, heq⟩
    · rw [asyncStep_typeOf hinv h (hinv.worker_allocated hw (by rw [hst]; rfl))]
      exact hd.handshaking w hw hst
    · rw [hst] at heq
      cases heq
  · refine hd.apart (fun hnone => hn ?_) k x y (hheading x k hx) (hheading y k hy)
    rcases hother.number with heq | heq
    · rw [heq, hnone]
    · exact heq

/-- A step of a thread that processes an event. -/
theorem DuplexInv.work (hd : DuplexInv s) (hinv : AsyncInv s) (hinv' : AsyncInv s') {w : Worker}
    {m : StageMove} (hok : AnswerApart s (.work w m)) (h : asyncStep s (.work w m) = some s') :
    DuplexInv s' := by
  have htype : ∀ e ∈ allocated s.conn.log, s'.conn.typeOf e = s.conn.typeOf e := fun e he =>
    asyncStep_typeOf hinv h he
  simp only [asyncStep] at h
  split at h
  next hw =>
    split at h <;> cases h
    next stage' c' hstep =>
    have hlocal := eventProcessStep_local hinv.socket hstep
    have halloc := hinv.worker_allocated hw hlocal.holding
    refine ⟨fun w' hw' hst => ?_, fun hn k x y hx hy => ?_⟩
    · rcases List.mem_cons.mp hw' with rfl | hw'
      · rw [htype _ halloc]
        simp only [] at hst
        subst hst
        exact eventProcessStep_handshaking hstep
      · have hw' := List.mem_of_mem_erase hw'
        rw [htype _ (hinv.worker_allocated hw' (by rw [hst]; rfl))]
        exact hd.handshaking w' hw' hst
    by_cases hc : s.conn.classOf w.event = .connect
    · -- a connect-class event is the only one that is processed
      have hmem : w.event ∈ (AsyncSystem.mk c' (⟨w.event, stage'⟩ :: s.workers.erase w) s.callbacks
          s.completions s.caller s.refused).processing := by
        have hlinked := hlocal.linked w.event
        refine List.count_pos_iff.mp ?_
        simp only [AsyncSystem.processing, AsyncSystem.owned, List.flatMap_cons, List.count_append]
        rw [List.count_singleton_self] at hlinked
        rw [show (Worker.owned ⟨w.event, stage'⟩).count w.event = (stage'.owned w.event).count w.event
          from rfl]
        omega
      have hc' : c'.classOf w.event = .connect := by
        rw [Conn.classOf, htype _ halloc]
        exact hc
      rw [hinv'.connect_alone hmem hc' hx.processing, hinv'.connect_alone hmem hc' hy.processing]
    · have hst : w.stage ≠ .handshaking := by
        intro hst
        have ht := hd.handshaking w hw hst
        refine hc ?_
        rw [Conn.classOf]
        cases htype : s.conn.typeOf w.event <;> first | rfl | (rw [htype] at ht; cases ht)
      have hdir := eventProcessStep_directed hinv.socket hc hst hstep
      have hproblem : c'.transaction.problem = s.conn.transaction.problem := by
        rw [hlocal.quiet.transaction]
      have hnumber : s.conn.sp.number ≠ none := hdir.number ▸ hn
      -- where an event is on its way to now, it was before, but for a new answer
      have hcases : ∀ z, AsyncSystem.Heading ⟨c', ⟨w.event, stage'⟩ :: s.workers.erase w, s.callbacks,
          s.completions, s.caller, s.refused⟩ z k → s.Heading z k ∨ z = w.event ∧
            ∀ z', ¬ s.Heading z' k := by
        rintro z (hz | ⟨w', hw', rfl, hz⟩)
        · rcases hdir.arg k z hz with hz | ⟨rfl, hslot⟩
          · exact .inl (.inl hz)
          · exact .inl (.inr ⟨w, hw, rfl, hslot⟩)
        · rcases List.mem_cons.mp hw' with rfl | hw'
          · rw [hproblem] at hz
            rcases hdir.direction k hz with hz | ⟨hp, blockedOn, rfl, hslot⟩
            · exact .inl (.inr ⟨w, hw, rfl, hz⟩)
            · exact .inr ⟨rfl, hok rfl hp hnumber k hslot⟩
          · rw [hproblem] at hz
            exact .inl (.inr ⟨w', List.mem_of_mem_erase hw', rfl, hz⟩)
      rcases hcases x hx with hx | ⟨rfl, hnot⟩
      · rcases hcases y hy with hy | ⟨rfl, hnot⟩
        · exact hd.apart hnumber k x y hx hy
        · exact absurd hx (hnot x)
      · rcases hcases y hy with hy | ⟨rfl, _⟩
        · exact absurd hy (hnot y)
        · rfl
  · cases h

theorem duplexInv_step {a : AsyncAction} (hinv : AsyncInv s) (hd : DuplexInv s)
    (hok : AnswerApart s a) (h : asyncStep s a = some s') : DuplexInv s' := by
  by_cases hw : ∃ w m, a = .work w m
  · obtain ⟨w, m, rfl⟩ := hw
    exact hd.work hinv (asyncStep_effect hinv h).1 hok h
  · exact hd.other hinv (asyncStep_other hinv h fun w m heq => hw ⟨w, m, heq⟩) h

theorem DuplexInv.initial (h : s.Initial) : DuplexInv s := by
  refine ⟨fun w hw => ?_, fun _ k x y hx _ => ?_⟩
  · rw [h.workers] at hw
    cases hw
  · rcases hx with hx | ⟨w, hw, _⟩
    · rw [h.socket k] at hx
      cases hx
    · rw [h.workers] at hw
      cases hw

theorem duplexInv_reachable {s₀ : AsyncSystem} (hinit : s₀.Initial)
    (h : ReachableVia (enabled asyncStep) AnswerApart s₀ s) : AsyncInv s ∧ DuplexInv s := by
  refine h.invariant (P := fun s => AsyncInv s ∧ DuplexInv s)
    ⟨.initial hinit, .initial hinit⟩ ?_
  rintro s a s' ⟨hinv, hd⟩ hok hstep
  exact ⟨(asyncStep_effect hinv hstep).1, duplexInv_step hinv hd hok hstep⟩

end Invariant

/-! ### Collisions -/

section Collision

variable {s s' : AsyncSystem}

/-- When `SocketEventWaitEx` fails with `EBUSY`. -/
theorem socketEventWaitEx_ebusy {sp : SOCK} {blockedOn : SocketEventType} {e : EventId}
    {epollErr : Errno} (hep : epollErr ≠ Errno.ebusy) :
    (socketEventWaitEx sp blockedOn e epollErr).1 = Errno.ebusy ↔ sp.number ≠ none ∧
      ∃ k x, socketEventSlot (sockEventTranslate blockedOn) = some k ∧
        (sp.event.get k).arg = some x := by
  unfold socketEventWaitEx
  cases hslot : socketEventSlot (sockEventTranslate blockedOn) with
  | none => simp [Errno.econniobug, Errno.ebusy]
  | some k =>
    by_cases hn : sp.number = none
    · simp [hn, Errno.enotsock, Errno.ebusy]
    · unfold seLinkCe
      cases harg : (sp.event.get k).arg with
      | some x => simp [hn, harg]
      | none =>
        simp only [hn, harg, if_false, sockEventAdd]
        by_cases hz : epollErr = 0
        · simp [hz, harg, Errno.ebusy]
        · obtain ⟨n, rfl⟩ := Nat.exists_eq_succ_of_ne_zero hz
          simp [harg, hep]

/-- **No thread is about to get `EBUSY` (proved).** -/
theorem DuplexInv.noCollision (hinv : AsyncInv s) (hd : DuplexInv s) : NoCollision s := by
  intro w hw blockedOn hst epollErr hep hbusy
  obtain ⟨hn, k, x, hslot, harg⟩ := (socketEventWaitEx_ebusy hep).mp hbusy
  have heq : x = w.event := hd.apart hn k x w.event (.inl harg)
    (.inr ⟨w, hw, rfl, by rw [hst]; exact hslot⟩)
  -- the event is with its thread, so it is not in the engine
  subst heq
  have hone := hinv.processing_le_one w.event
  have hcount := count_flatMap_erase hw Worker.owned w.event
  have hown : (Worker.owned w).count w.event = 1 := by
    rw [Worker.owned, Stage.owned, hst]
    simp [Stage.holding]
  have hlinked : 0 < s.conn.sp.linked.count w.event :=
    List.count_pos_iff.mpr (SOCK.mem_linked.mpr ⟨k, harg⟩)
  simp only [AsyncSystem.processing, AsyncSystem.owned, List.count_append] at hone
  omega

/-- A thread is about to put its event into a `SocketEvent` that is linked. -/
theorem collision_of_arg {w : Worker} {blockedOn : SocketEventType} {k : ConnEventClass}
    (hw : w ∈ s.workers) (hst : w.stage = .submitting blockedOn)
    (hslot : socketEventSlot (sockEventTranslate blockedOn) = some k)
    (hn : s.conn.sp.number ≠ none) (harg : (s.conn.sp.event.get k).arg ≠ none) : ¬ NoCollision s := by
  intro h
  obtain ⟨x, hx⟩ := Option.ne_none_iff_exists'.mp harg
  exact h w hw blockedOn hst 0 (by decide)
    ((socketEventWaitEx_ebusy (by decide)).mpr ⟨hn, k, x, hslot, hx⟩)

/-- Without a problem a blocked thread goes on to the engine. -/
theorem asyncStep_test {e : EventId} {blockedOn : SocketEventType}
    (hw : ⟨e, .blocked blockedOn⟩ ∈ s.workers) (hp : s.conn.transaction.problem = none) :
    asyncStep s (.work ⟨e, .blocked blockedOn⟩ .test) = some { s with
      workers := ⟨e, .submitting blockedOn⟩ :: s.workers.erase ⟨e, .blocked blockedOn⟩ } := by
  simp [asyncStep, hw, eventProcessStep, hp]

/-- Of two threads on their way to one `SocketEvent`, the second one collides. -/
theorem collision_of_submitting {w w' : Worker} {b b' : SocketEventType} {k : ConnEventClass}
    (hne : w' ≠ w) (hw : w ∈ s.workers) (hw' : w' ∈ s.workers) (hst : w.stage = .submitting b)
    (hst' : w'.stage = .submitting b') (hslot : socketEventSlot (sockEventTranslate b) = some k)
    (hslot' : socketEventSlot (sockEventTranslate b') = some k) (hn : s.conn.sp.number ≠ none) :
    ∃ u, Reachable (enabled asyncStep) s u ∧ ¬ NoCollision u := by
  cases harg : (s.conn.sp.event.get k).arg with
  | some x => exact ⟨s, .init, collision_of_arg hw hst hslot hn (by rw [harg]; simp)⟩
  | none =>
    -- the other thread gets there first
    have hwait : socketEventWaitEx s.conn.sp b' w'.event 0 = (0, { s.conn.sp with
        event := s.conn.sp.event.set k { s.conn.sp.event.get k with
          arg := some w'.event, type := sockEventTranslate b', error := 0, inEngine := true } }) := by
      simp [socketEventWaitEx, hslot', hn, seLinkCe, harg, sockEventAdd]
    have hstep : asyncStep s (.work w' (.submit 0)) = some { s with
        conn := (submitToEngine s.conn w'.event b' 0).2
        workers := ⟨w'.event, (submitToEngine s.conn w'.event b' 0).1⟩ :: s.workers.erase w' } := by
      simp [asyncStep, hw', hst', eventProcessStep]
    have hsp : (submitToEngine s.conn w'.event b' 0).2.sp = { s.conn.sp with
        event := s.conn.sp.event.set k { s.conn.sp.event.get k with
          arg := some w'.event, type := sockEventTranslate b', error := 0, inEngine := true } } := by
      have hwait' : socketEventWaitEx (s.conn.setStatus w'.event .inProgress).sp b' w'.event 0 = _ :=
        hwait
      simp only [submitToEngine, hwait']
      rfl
    refine ⟨_, .single trivial hstep, collision_of_arg (w := w)
      (List.mem_cons_of_mem _ ((List.mem_erase_of_ne (Ne.symm hne)).mpr hw)) hst hslot ?_ ?_⟩
    · rw [hsp]
      exact hn
    · rw [hsp]
      simp

/-- **An answer that blocks an event in the direction the other one is blocked in leads to a collision
(proved).** -/
theorem collision_of_answer {a : AsyncAction} {t : AsyncSystem} (hinv : AsyncInv s)
    (h : asyncStep s a = some t) (hbad : ¬ AnswerApart s a) :
    ∃ u, Reachable (enabled asyncStep) t u ∧ ¬ NoCollision u := by
  cases a with
  | work w m =>
    cases m with
    | process m =>
      cases m with
      | ret err b =>
        simp only [AnswerApart, not_forall, Classical.not_not] at hbad
        obtain ⟨rfl, hp, hn, k, hslot, x, hx⟩ := hbad
        simp only [asyncStep] at h
        split at h
        next hw =>
          split at h <;> cases h
          next stage' c' hstep =>
          obtain ⟨e, stage⟩ := w
          cases stage <;> simp only [eventProcessStep, reduceCtorEq] at hstep
          -- the other event is not the one that is processed, which is of class send or receive
          have hnot := hinv.not_heading hw rfl rfl
          have hxe : x ≠ e := by
            rintro rfl
            exact hnot k hx
          have hc : s.conn.classOf e ≠ .connect := fun hc =>
            hxe (hinv.connect_alone (List.mem_append_left _ (List.mem_append_left _
              (List.mem_flatMap.mpr ⟨_, hw, List.mem_singleton.mpr rfl⟩))) hc hx.processing)
          have hret : (stage', c') = (.blocked b, s.conn) := by
            split at hstep
            next heq =>
              obtain ⟨r', _, heq'⟩ := Option.map_eq_some_iff.mp heq
              cases heq'
            next r c₁ heq =>
              obtain ⟨err', b'⟩ := r
              have hm := (processMove_sp heq hc).2.2 err' b' rfl
              cases hm
              obtain ⟨r', _, heq'⟩ := Option.map_eq_some_iff.mp heq
              cases heq'
              have hstep := Option.some.inj hstep
              rw [← hstep]
              simp [processReturned, Errno.ewouldblock]
            · cases hstep
          cases hret
          -- the thread goes on to the engine
          have htest := asyncStep_test (s := { s with
            workers := ⟨e, .blocked b⟩ :: s.workers.erase ⟨e, .processing⟩ })
            (List.mem_cons_self ..) hp
          rw [List.erase_cons_head] at htest
          rcases hx with harg | ⟨w', hw', rfl, hdir⟩
          · exact ⟨_, .single trivial htest, collision_of_arg (w := ⟨e, .submitting b⟩)
              (List.mem_cons_self ..) rfl hslot hn (by rw [harg]; simp)⟩
          · obtain ⟨y, stage⟩ := w'
            have hmem : ⟨y, stage⟩ ∈ s.workers.erase ⟨e, .processing⟩ :=
              (List.mem_erase_of_ne fun heq => hxe (congrArg Worker.event heq)).mpr hw'
            have hne : ∀ st st' : Stage, (⟨y, st⟩ : Worker) ≠ ⟨e, st'⟩ := fun st st' heq =>
              hxe (congrArg Worker.event heq)
            cases stage with
            | submitting b' =>
              obtain ⟨u, hu, hcol⟩ := collision_of_submitting (s := { s with
                workers := ⟨e, .submitting b⟩ :: s.workers.erase ⟨e, .processing⟩ }) (hne _ _)
                (List.mem_cons_self ..) (List.mem_cons_of_mem _ hmem) rfl rfl hslot hdir hn
              exact ⟨u, (ReachableVia.single trivial htest).trans hu, hcol⟩
            | blocked b' =>
              simp only [Stage.direction, hp, if_true] at hdir
              have htest' := asyncStep_test (s := { s with
                workers := ⟨e, .submitting b⟩ :: s.workers.erase ⟨e, .processing⟩ })
                (List.mem_cons_of_mem _ hmem) hp
              obtain ⟨u, hu, hcol⟩ := collision_of_submitting (s := { s with
                workers := ⟨y, .submitting b'⟩ :: List.erase (⟨e, .submitting b⟩ ::
                  s.workers.erase ⟨e, .processing⟩) ⟨y, .blocked b'⟩ }) (hne _ _)
                (List.mem_cons_of_mem _ ((List.mem_erase_of_ne (hne _ _).symm).mpr
                  (List.mem_cons_self ..))) (List.mem_cons_self ..) rfl rfl hslot hdir hn
              exact ⟨u, ((ReachableVia.single trivial htest).next trivial htest').trans hu, hcol⟩
            | _ => cases hdir
        · cases h
      | _ => exact absurd trivial hbad
    | _ => exact absurd trivial hbad
  | _ => exact absurd trivial hbad

/-- **A send and a receive event do not collide in the engine along such answers, and the first other
answer leads to a collision (proved).** -/
theorem reachable_noCollision {s₀ : AsyncSystem} (hinit : s₀.Initial)
    (h : ReachableVia (enabled asyncStep) AnswerApart s₀ s) :
    NoCollision s ∧ ∀ a t, asyncStep s a = some t → ¬ AnswerApart s a →
      ∃ u, Reachable (enabled asyncStep) t u ∧ ¬ NoCollision u := by
  obtain ⟨hinv, hd⟩ := duplexInv_reachable hinit h
  exact ⟨hd.noCollision hinv, fun a t hstep hbad => collision_of_answer hinv hstep hbad⟩

end Collision

/-! ### A collision -/

/-- A TLS session is established; then a read `1` is blocked on `direction` and waits in the engine, and a
write `2` is about to be put there, blocked on `WRITABLE`. -/
def duplexRun (direction : SocketEventType) : List AsyncAction :=
  queueRun 0 { type := .tlsConnect, source := ⟨0, 1⟩ } ++
  processRun 0 [(.destroying [], .destroy), (.starting, .test), (.processing, .checkBuffer),
    (.handshaking, .handshake (some 7) .success)] .complete ++
  queueRun 1 { type := .read, source := ⟨0, 2⟩ } ++
  processRun 1 [(.destroying [0], .destroy), (.starting, .test),
    (.processing, .process (.ret Errno.ewouldblock direction)), (.blocked direction, .test),
    (.submitting direction, .submit 0)] .inProgress ++
  queueRun 2 { type := .writeFromClientBuffer, source := ⟨0, 3⟩, bufferStart := true } ++
  [.work ⟨2, .destroying []⟩ .destroy, .work ⟨2, .starting⟩ .test,
    .work ⟨2, .processing⟩ (.process .send),
    .work ⟨2, .processing⟩ (.process (.ret Errno.ewouldblock .writable)),
    .work ⟨2, .blocked .writable⟩ .test]

/-- The threads inside `ConnEventsProcess`, the active events and the socket. -/
structure InFlight where
  workers : List Worker
  activeEvent : Slots (Option EventId)
  sp : SOCK
  deriving DecidableEq

def AsyncSystem.inFlight (s : AsyncSystem) : InFlight :=
  ⟨s.workers, s.conn.activeEvent, s.conn.sp⟩

theorem duplexRun_readable : (runFrom (guarded AnswerApart asyncStep) (AsyncSystem.new (some 3))
    (duplexRun .readable)).map AsyncSystem.inFlight = some ⟨[⟨2, .submitting .writable⟩],
      ⟨none, some 1, some 2⟩,
      { number := some 3, sslConn := some 7, event := ⟨{}, ⟨some 1, .readable, 0, true, 0⟩, {}⟩ }⟩ := by
  decide +kernel

theorem duplexRun_writable : (runFrom asyncStep (AsyncSystem.new (some 3))
    (duplexRun .writable)).map AsyncSystem.inFlight = some ⟨[⟨2, .submitting .writable⟩],
      ⟨none, some 1, some 2⟩,
      { number := some 3, sslConn := some 7, event := ⟨{}, {}, ⟨some 1, .writable, 0, true, 0⟩⟩ }⟩ := by
  decide +kernel

/-- A read that waits for `READABLE` and a write that waits for `WRITABLE`. -/
theorem reachable_noCollision_readable : ∃ s : AsyncSystem, NoCollision s ∧
    s.conn.activeEvent = ⟨none, some 1, some 2⟩ := by
  obtain ⟨s, hrun, hobs⟩ := Option.map_eq_some_iff.mp duplexRun_readable
  simp only [AsyncSystem.inFlight, InFlight.mk.injEq] at hobs
  exact ⟨s, (reachable_noCollision (AsyncSystem.new_initial (some 3))
    (reachableVia_of_runFrom hrun)).1, hobs.2.1⟩

/-- **A read that waits for `WRITABLE` collides with a write (proved).** -/
theorem noCollision_fails : ¬ ∀ s₀ s : AsyncSystem, s₀.Initial → Reachable (enabled asyncStep) s₀ s →
    NoCollision s := by
  intro h
  obtain ⟨s, hrun, hobs⟩ := Option.map_eq_some_iff.mp duplexRun_writable
  simp only [AsyncSystem.inFlight, InFlight.mk.injEq] at hobs
  obtain ⟨hworkers, _, hsp⟩ := hobs
  have hcol : ¬ NoCollision s := collision_of_arg (w := ⟨2, .submitting .writable⟩) (k := .send)
    (by rw [hworkers]; exact List.mem_singleton.mpr rfl) rfl rfl (by rw [hsp]; simp)
    (by rw [hsp]; simp [Slots.get])
  exact hcol (h _ s (AsyncSystem.new_initial (some 3)) (reachable_of_runFrom hrun))

end Connio
