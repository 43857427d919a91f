import Connio.Ownership

/-!
# Steps without the event lock and the free list

The steps of one conn's system that take no event lock neither look at the free list of the transaction nor
write it: what such a step does, it does to the conn with any other free list.

* `Conn.withFreeList`, `AsyncSystem.withFreeList` — the conn with another free list;
* `eventProcessStep_withFreeList` — a thread that processes an event leaves the free list alone;
* `AsyncAction.takesLock` — the steps that are a hold of the event lock;
* `asyncStep_withFreeList` — **PROVED**: every other step commutes with an exchange of the free list;
* `asyncStep_transaction` — **PROVED**: and leaves the transaction as it is.
-/

namespace Connio

open Connio.Lib

/-- The conn with the free list `l`. -/
def Conn.withFreeList (c : Conn) (l : List EventId) : Conn := { c with transaction.freeList := l }

namespace Conn

variable (c : Conn) (l : List EventId)

@[simp] theorem withFreeList_events : (c.withFreeList l).events = c.events := (rfl)

@[simp] theorem withFreeList_typeOf : (c.withFreeList l).typeOf = c.typeOf := (rfl)

@[simp] theorem withFreeList_classOf : (c.withFreeList l).classOf = c.classOf := (rfl)

@[simp] theorem withFreeList_sp : (c.withFreeList l).sp = c.sp := (rfl)

@[simp] theorem withFreeList_state : (c.withFreeList l).state = c.state := (rfl)

@[simp] theorem withFreeList_receiveBuffer : (c.withFreeList l).receiveBuffer = c.receiveBuffer := (rfl)

@[simp] theorem withFreeList_problem :
    (c.withFreeList l).transaction.problem = c.transaction.problem := (rfl)

end Conn

/-! ### A thread that processes an event -/

section Processing

variable (c : Conn) (l : List EventId)

theorem connEventFreeResources_withFreeList (e : EventId) :
    connEventFreeResources (c.withFreeList l) e = (connEventFreeResources c e).withFreeList l := by
  unfold connEventFreeResources
  simp only [Conn.withFreeList_events]
  split_ifs <;> rfl

theorem connEventFree_withFreeList (e : EventId) :
    connEventFree (c.withFreeList l) e = (connEventFree c e).withFreeList l := by
  show (connEventFreeResources (c.withFreeList l) e).note (.memFree e) = _
  rw [connEventFreeResources_withFreeList]
  rfl

theorem connEventFreeListDestroy_withFreeList (freeList : List EventId) :
    connEventFreeListDestroy (c.withFreeList l) freeList =
      (connEventFreeListDestroy c freeList).withFreeList l := by
  induction freeList generalizing c with
  | nil => rfl
  | cons e es ih =>
    show connEventFreeListDestroy (connEventFree (c.withFreeList l) e) es = _
    rw [connEventFree_withFreeList]
    exact ih (connEventFree c e)

theorem clientBufferFree_withFreeList (e : EventId) :
    clientBufferFree (c.withFreeList l) e = (clientBufferFree c e).withFreeList l := by
  unfold clientBufferFree
  simp only [Conn.withFreeList_events]
  split_ifs <;> rfl

theorem socketEventComplete_withFreeList (e : EventId) :
    socketEventComplete (c.withFreeList l) e = (socketEventComplete c e).withFreeList l := by
  unfold socketEventComplete
  rw [Conn.withFreeList_typeOf]
  split
  · exact clientBufferFree_withFreeList c l e
  · rfl
  · rfl

theorem socketEventAbort_withFreeList (e : EventId) :
    socketEventAbort (c.withFreeList l) e = (socketEventAbort c e).withFreeList l := by
  unfold socketEventAbort
  rw [Conn.withFreeList_typeOf]
  split
  · exact clientBufferFree_withFreeList c l e
  all_goals rfl

/-- One step inside the process function. -/
theorem processMove_withFreeList (e : EventId) (m : ProcessMove) :
    processMove (c.withFreeList l) e m =
      (processMove c e m).map fun r => (r.1, r.2.withFreeList l) := by
  cases m with
  | ret err blockedOn =>
    show (processReturn c e err blockedOn).map _ = ((processReturn c e err blockedOn).map _).map _
    rw [Option.map_map]
    rfl
  | _ =>
    simp only [processMove, Conn.withFreeList_classOf, Conn.withFreeList_typeOf,
      Conn.withFreeList_events, Conn.withFreeList_sp]
    split_ifs <;> rfl

theorem connEventProcessEnd_withFreeList (e : EventId) (status : ConnEventStatus) :
    connEventProcessEnd (c.withFreeList l) e status =
      ((connEventProcessEnd c e status).1, (connEventProcessEnd c e status).2.withFreeList l) := by
  unfold connEventProcessEnd
  rw [connEventFreeResources_withFreeList]
  rfl

theorem processReturned_withFreeList (e : EventId) (r : Errno × SocketEventType) :
    processReturned (c.withFreeList l) e r =
      ((processReturned c e r).1, (processReturned c e r).2.withFreeList l) := by
  obtain ⟨err, blockedOn⟩ := r
  simp only [processReturned]
  rw [socketEventComplete_withFreeList]
  split_ifs
  · exact connEventProcessEnd_withFreeList _ l e .complete
  · rfl
  · rfl

theorem submitToEngine_withFreeList (e : EventId) (blockedOn : SocketEventType) (epollErr : Errno) :
    submitToEngine (c.withFreeList l) e blockedOn epollErr =
      ((submitToEngine c e blockedOn epollErr).1,
        (submitToEngine c e blockedOn epollErr).2.withFreeList l) := by
  simp only [submitToEngine, show ((c.withFreeList l).setStatus e .inProgress).sp = c.sp from rfl,
    show (c.setStatus e .inProgress).sp = c.sp from rfl]
  split <;> rfl

/-- **A thread that processes an event leaves the free list alone (proved).** -/
theorem eventProcessStep_withFreeList (e : EventId) (stage : Stage) (m : StageMove) :
    eventProcessStep (c.withFreeList l) e stage m =
      (eventProcessStep c e stage m).map fun r => (r.1, r.2.withFreeList l) := by
  unfold eventProcessStep
  split
  · rw [connEventFreeListDestroy_withFreeList]
    rfl
  · rfl
  · rw [processMove_withFreeList]
    match processMove c e _ with
    | some (none, c') => rfl
    | some (some r, c') =>
      show some (processReturned (c'.withFreeList l) e r) = _
      rw [processReturned_withFreeList]
      rfl
    | none => rfl
  · simp only [Conn.withFreeList_typeOf, Conn.withFreeList_receiveBuffer, processReturned_withFreeList]
    split_ifs <;> rfl
  · rename_i new ret
    rw [Conn.withFreeList_sp]
    match sslConnect c.sp new ret with
    | (r, sp) =>
      show some (processReturned (({ c with sp := sp }.note (.io e .sslHandshake)).withFreeList l) e r) = _
      rw [processReturned_withFreeList]
      rfl
  · simp only [Conn.withFreeList_problem]
    split_ifs <;> rfl
  · rw [submitToEngine_withFreeList]
    rfl
  · rw [socketEventAbort_withFreeList]
    rfl
  · simp only [Conn.withFreeList_events]
    rw [connEventProcessEnd_withFreeList]
    rfl
  · rfl

end Processing

/-! ### The steps of the system -/

theorem writeClientData_withFreeList (c : Conn) (l : List EventId) (async : Bool) (used : Option ℕ) :
    writeClientData (c.withFreeList l) async used = (writeClientData c async used).withFreeList l := by
  have hstate : (if async = true ∧ (c.withFreeList l).state = .idle then
      connChangeState (c.withFreeList l) .asynchronousClient else c.withFreeList l) =
      (if async = true ∧ c.state = .idle then connChangeState c .asynchronousClient else c).withFreeList l := by
    rw [Conn.withFreeList_state]
    split_ifs <;> rfl
  show { (if async = true ∧ (c.withFreeList l).state = .idle then
    connChangeState (c.withFreeList l) .asynchronousClient else c.withFreeList l) with sendBuffer := used } = _
  rw [hstate]
  rfl

/-- The system with the free list `l`. -/
def AsyncSystem.withFreeList (s : AsyncSystem) (l : List EventId) : AsyncSystem :=
  { s with conn := s.conn.withFreeList l }

/-- The steps that are a hold of the event lock. -/
def AsyncAction.takesLock : AsyncAction → Bool
  | .enqueue _ _ _ | .enqueueFailure _ _ | .submit _ _ _ | .kill _ | .handleAbort _ | .relock _
  | .enter _ | .prepare => true
  | _ => false

/-- The abort of `ConnAWriteFromBufferEx` in one step. -/
def AsyncAction.isWriteAbort : AsyncAction → Bool
  | .writeAbort _ => true
  | _ => false

/-- **A step without the event lock leaves the free list alone (proved).** -/
theorem asyncStep_withFreeList (s : AsyncSystem) (l : List EventId) {a : AsyncAction}
    (hlock : a.takesLock = false) (habort : a.isWriteAbort = false) :
    asyncStep (s.withFreeList l) a = (asyncStep s a).map fun t => t.withFreeList l := by
  cases a with
  | enqueue | enqueueFailure | submit | kill | handleAbort | relock | enter | prepare => cases hlock
  | writeAbort => cases habort
  | alloc e ce =>
    show (if e ∉ allocated s.conn.log ∧ ce.assigned then _ else _) = (if _ then _ else _ : Option _).map _
    split_ifs <;> rfl
  | free e =>
    simp only [asyncStep, AsyncSystem.withFreeList, connEventFree_withFreeList]
    split_ifs <;> rfl
  | work w m =>
    simp only [asyncStep, AsyncSystem.withFreeList, eventProcessStep_withFreeList]
    split_ifs
    · cases eventProcessStep s.conn w.event w.stage m with
      | none => rfl
      | some r => rfl
    · rfl
  | handle k =>
    simp only [asyncStep, AsyncSystem.withFreeList, Conn.withFreeList_sp]
    split <;> rfl
  | store cb =>
    show (if cb ∈ s.callbacks ∧ cb.stored = false then _ else _) = (if _ then _ else _ : Option _).map _
    split_ifs <;> rfl
  | destroy x =>
    cases x with
    | destroying summary freeList mark =>
      simp only [asyncStep, AsyncSystem.withFreeList, connEventFreeListDestroy_withFreeList]
      split_ifs <;> rfl
    | starting | calling => rfl
  | call x =>
    cases x with
    | calling summary mark =>
      show (if .calling summary mark ∈ s.completions then _ else _) = (if _ then _ else _ : Option _).map _
      split_ifs <;> rfl
    | starting | destroying => rfl
  | sendBuffer async used =>
    show some { s with conn := writeClientData (s.conn.withFreeList l) async used } = _
    rw [writeClientData_withFreeList]
    rfl
  | shuttingDown | waitForSubmit | pollReady | pollTimeout => rfl

/-- **A step without the event lock leaves the transaction alone (proved).** -/
theorem asyncStep_transaction {s t : AsyncSystem} {a : AsyncAction} (hok : s.conn.sp.Ok)
    (hlock : a.takesLock = false) (habort : a.isWriteAbort = false) (h : asyncStep s a = some t) :
    t.conn.transaction = s.conn.transaction ∧ s.conn.log.IsSuffix t.conn.log := by
  have hquiet : ∀ {c' : Conn}, Quiet s.conn c' →
      c'.transaction = s.conn.transaction ∧ s.conn.log.IsSuffix c'.log := fun hq => by
    obtain ⟨xs, _, hlog⟩ := hq.log
    exact ⟨hq.transaction, hlog ▸ List.suffix_append xs _⟩
  cases a with
  | enqueue | enqueueFailure | submit | kill | handleAbort | relock | enter | prepare => cases hlock
  | writeAbort => cases habort
  | alloc e ce =>
    simp only [asyncStep] at h
    split at h <;> cases h
    exact ⟨rfl, List.suffix_cons _ _⟩
  | free e =>
    simp only [asyncStep] at h
    split at h
    · cases h
      exact hquiet (connEventFree_quiet s.conn e)
    · split at h <;> cases h
      exact hquiet (connEventFree_quiet s.conn e)
  | work w m =>
    simp only [asyncStep] at h
    split at h
    · split at h <;> cases h
      next hstep => exact hquiet (eventProcessStep_local hok hstep).quiet
    · cases h
  | handle k =>
    simp only [asyncStep] at h
    split at h <;> cases h
    exact ⟨rfl, List.suffix_rfl⟩
  | store cb =>
    simp only [asyncStep] at h
    split at h <;> cases h
    exact ⟨rfl, List.suffix_rfl⟩
  | destroy x =>
    simp only [asyncStep] at h
    split at h
    · split at h <;> cases h
      exact hquiet (connEventFreeListDestroy_quiet _ s.conn)
    · cases h
  | call x =>
    simp only [asyncStep] at h
    split at h
    · split at h <;> cases h
      exact ⟨rfl, List.suffix_cons _ _⟩
    · cases h
  | sendBuffer async used =>
    cases h
    show (ite _ _ _ : Conn).transaction = _ ∧ List.IsSuffix _ (ite _ _ _ : Conn).log
    split_ifs <;> exact ⟨rfl, List.suffix_rfl⟩
  | shuttingDown | waitForSubmit | pollReady | pollTimeout =>
    cases h
    exact ⟨rfl, List.suffix_rfl⟩

end Connio
