import Connio.Queue
import Connio.History
import Mathlib.Logic.Relation

/-!
# What a hold of the event lock does

The queue functions are made of a few kinds of updates.  They never read or write the wire, and never touch
what is established on the socket.  These facts need no invariant.

* `LogEntry.isCall`, `calls` — the entries that only the process functions write; `Appends` — what has been
  appended to the queue;
* `LockUpdate`, `LockRun` — one update and many; only `EventEnqueue` appends to the queue and tells whether
  SSL will be enabled;
* `connEventsProcess_run`, `eventEnqueue_run`, `eventsSubmit_run`, `connKillEx_run`, ... — **PROVED**: each
  function that is called with the event lock is a `LockRun`;
* `LockFrame`, `LockRun.frame` — **PROVED**: what such a run leaves alone.
-/

namespace Connio

open Connio.Lib

/-- A call a process function makes, octets it delivers, or its event handed to the engine. -/
def LogEntry.isCall : LogEntry → Bool
  | .io _ _ | .deliver _ _ | .wait _ => true
  | _ => false

/-- What the process functions have written to the history. -/
def calls (log : List LogEntry) : List LogEntry := log.filter LogEntry.isCall

/-- **`new` has been appended, in this order, and no transaction has ended.** -/
structure Appends (c c' : Conn) (new : List EventId) : Prop where
  log : ∃ xs, (∀ x ∈ xs, LogEntry.isPrepare x = false) ∧ appended xs = new.reverse ∧ c'.log = xs ++ c.log

namespace Appends

variable {c c' c'' : Conn} {new new' : List EventId}

theorem of_log (h : c'.log = c.log) : Appends c c' [] := ⟨[], by simp, rfl, h⟩

theorem trans (h : Appends c c' new) (h' : Appends c' c'' new') : Appends c c'' (new ++ new') := by
  obtain ⟨xs, hxs, hnew, hlog⟩ := h.log
  obtain ⟨ys, hys, hnew', hlog'⟩ := h'.log
  refine ⟨ys ++ xs, fun x hx => ?_, ?_, by rw [hlog', hlog, List.append_assoc]⟩
  · rcases List.mem_append.mp hx with hx | hx
    · exact hys x hx
    · exact hxs x hx
  · rw [Connio.appended, List.filterMap_append, List.reverse_append]
    exact congrArg₂ _ hnew' hnew

/-- An entry that appends nothing. -/
theorem note (h : Appends c c' new) {x : LogEntry} (hprepare : x.isPrepare = false) (happend : x.append? = none) :
    Appends c (c'.note x) new := by
  have hone : Appends c' (c'.note x) [] :=
    ⟨[x], by simp [hprepare], List.filterMap_cons_none happend, rfl⟩
  simpa using h.trans hone

theorem appended (h : Appends c c' new) : Connio.appended c'.log = new.reverse ++ Connio.appended c.log := by
  obtain ⟨xs, _, hnew, hlog⟩ := h.log
  rw [hlog, ← hnew]
  exact List.filterMap_append

/-- The same for the transaction that is running. -/
theorem txn (h : Appends c c' new) :
    Connio.appended (txnLog c'.log) = new.reverse ++ Connio.appended (txnLog c.log) := by
  obtain ⟨xs, hxs, hnew, hlog⟩ := h.log
  rw [hlog, txnLog, List.takeWhile_append_of_pos fun x hx => by simp [hxs x hx], ← hnew]
  exact List.filterMap_append

end Appends

/-! ### Updates -/

/-- An entry that neither the process functions write nor the queue's own two functions. -/
def LogEntry.isBookkeeping (x : LogEntry) : Bool :=
  !x.isCall && !x.isPrepare && x.append?.isNone && x.leave?.isNone

/-- What a function does under the event lock beside the updates all of them share: `EventEnqueue` queues
events, a write uses the send buffer, and a thread that comes back from `ConnEventProcess` ends an event. -/
inductive LockKind where
  | plain
  | queueing
  | writing
  | finishing
  deriving DecidableEq, Repr

/-- **One update under the event lock.** -/
inductive LockUpdate (kind : LockKind) : Conn → Conn → Prop
  /-- the queue, its events, the slots and the counts -/
  | same {c c' : Conn} (sp : c'.sp = c.sp) (receiveBuffer : c'.receiveBuffer = c.receiveBuffer)
      (problem : c'.transaction.problem = c.transaction.problem)
      (sslEnabled : c'.transaction.sslEnabled = c.transaction.sslEnabled) (log : c'.log = c.log)
      (state : c'.state = .idle → c.state = .idle)
      (sendBuffer : c'.sendBuffer = c.sendBuffer ∨ kind = .queueing ∨ kind = .writing) :
      LockUpdate kind c c'
  | note (c : Conn) {x : LogEntry} (hx : x.isBookkeeping = true) : LockUpdate kind c (c.note x)
  | problem (c : Conn) (p : AsyncProblem) :
      LockUpdate kind c { c with transaction.problem := some p }
  | kill (c : Conn) (k : ConnEventClass) :
      LockUpdate kind c { c with sp := socketEventKill c.sp k }
  | sslNewFree (c : Conn) : LockUpdate kind c { c with sp := socketSSLNewFree c.sp }
  | close (c : Conn) : LockUpdate kind c { c with sp := socketClose c.sp }
  | append (c : Conn) (e : EventId) (hq : kind = .queueing) : LockUpdate kind c (c.note (.append e))
  | sslEnabled (c : Conn) (b : Bool) (hq : kind = .queueing) :
      LockUpdate kind c { c with transaction.sslEnabled := b }
  | leave (c : Conn) (e : EventId) (st : ConnEventStatus) (err : Errno) (src : CodeSource)
      (hf : kind = .finishing) : LockUpdate kind c (c.note (.leave e st err src))

/-- Updates in a row. -/
abbrev LockRun (kind : LockKind) : Conn → Conn → Prop := Relation.ReflTransGen (LockUpdate kind)

namespace LockRun

variable {c c' c'' : Conn} {kind : LockKind}

theorem refl (c : Conn) : LockRun kind c c := Relation.ReflTransGen.refl

theorem trans (h : LockRun kind c c') (h' : LockRun kind c' c'') : LockRun kind c c'' :=
  Relation.ReflTransGen.trans h h'

theorem same (hsp : c'.sp = c.sp) (hbuf : c'.receiveBuffer = c.receiveBuffer)
    (hp : c'.transaction.problem = c.transaction.problem)
    (hssl : c'.transaction.sslEnabled = c.transaction.sslEnabled) (hlog : c'.log = c.log)
    (hstate : c'.state = .idle → c.state = .idle) (hsend : c'.sendBuffer = c.sendBuffer) : LockRun kind c c' :=
  .single (.same hsp hbuf hp hssl hlog hstate (.inl hsend))

theorem note {x : LogEntry} (h : LockRun kind c c') (hx : x.isBookkeeping = true) :
    LockRun kind c (c'.note x) :=
  h.tail (.note c' hx)

theorem setEvent (h : LockRun kind c c') (e : EventId) (ce : ConnEvent) :
    LockRun kind c (c'.setEvent e ce) :=
  h.tail (.same rfl rfl rfl rfl rfl id (.inl rfl))

/-- Only `PrepareForCallback` makes a conn idle. -/
theorem idle_of_idle (h : LockRun kind c c') (hidle : c'.state = .idle) : c.state = .idle := by
  induction h with
  | refl => exact hidle
  | tail _ hstep ih =>
    apply ih
    cases hstep with
    | same _ _ _ _ _ hstate _ => exact hstate hidle
    | note | problem | kill | sslNewFree | close | append | sslEnabled | leave => exact hidle

/-- What all functions share may be done by any of them. -/
theorem any (h : LockRun .plain c c') : LockRun kind c c' := by
  refine Relation.ReflTransGen.mono (fun _ _ hstep => ?_) _ _ h
  cases hstep with
  | same hsp hbuf hp hssl hlog hstate hsend =>
    rcases hsend with hsend | hkind | hkind
    · exact .same hsp hbuf hp hssl hlog hstate (.inl hsend)
    · cases hkind
    · cases hkind
  | note hx => exact .note _ hx
  | problem p => exact .problem _ p
  | kill k => exact .kill _ k
  | sslNewFree => exact .sslNewFree _
  | close => exact .close _
  | append _ hq => cases hq
  | sslEnabled _ hq => cases hq
  | leave _ _ _ _ hf => cases hf

/-- Nothing is taken from the history. -/
theorem suffix (h : LockRun kind c c') : c.log.IsSuffix c'.log := by
  induction h with
  | refl => exact List.suffix_rfl
  | tail _ hstep ih =>
    apply ih.trans
    cases hstep with
    | same _ _ _ _ hlog _ _ =>
      exact hlog ▸ List.suffix_rfl
    | note | append | leave => exact List.suffix_cons _ _
    | problem | kill | sslNewFree | close | sslEnabled => exact List.suffix_rfl

/-- Only `EventEnqueue` queues events. -/
theorem appends (h : LockRun kind c c') (hkind : kind ≠ .queueing) : Appends c c' [] := by
  induction h with
  | refl => exact .of_log rfl
  | tail _ hstep ih =>
    cases hstep with
    | same _ _ _ _ hlog _ _ => simpa using ih.trans (.of_log hlog)
    | @note x hx =>
      simp only [LogEntry.isBookkeeping, Bool.and_eq_true, Bool.not_eq_true', Option.isNone_iff_eq_none] at hx
      exact ih.note hx.1.1.2 hx.1.2
    | append _ hq => exact absurd hq hkind
    | leave => exact ih.note rfl rfl
    | problem | kill | sslNewFree | close | sslEnabled => exact ⟨ih.log⟩

/-- Only a thread that comes back from `ConnEventProcess` ends an event. -/
theorem left (h : LockRun kind c c') (hkind : kind ≠ .finishing) : Connio.left c'.log = Connio.left c.log := by
  induction h with
  | refl => rfl
  | tail _ hstep ih =>
    rw [← ih]
    cases hstep with
    | same _ _ _ _ hlog _ _ => rw [hlog]
    | @note x hx =>
      simp only [LogEntry.isBookkeeping, Bool.and_eq_true, Option.isNone_iff_eq_none] at hx
      exact List.filterMap_cons_none hx.2
    | leave _ _ _ _ hf => exact absurd hf hkind
    | append | problem | kill | sslNewFree | close | sslEnabled => rfl

/-- Only `EventEnqueue` follows SSL. -/
theorem sslEnabled (h : LockRun kind c c') (hkind : kind ≠ .queueing) :
    c'.transaction.sslEnabled = c.transaction.sslEnabled := by
  induction h with
  | refl => rfl
  | tail _ hstep ih =>
    rw [← ih]
    cases hstep with
    | same _ _ _ hssl _ _ _ => exact hssl
    | sslEnabled _ hq => exact absurd hq hkind
    | note | append | leave | problem | kill | sslNewFree | close => rfl

/-- Only `EventEnqueue` and the writes use the send buffer. -/
theorem sendBuffer (h : LockRun kind c c') (hqueueing : kind ≠ .queueing) (hwriting : kind ≠ .writing) :
    c'.sendBuffer = c.sendBuffer := by
  induction h with
  | refl => rfl
  | tail _ hstep ih =>
    rw [← ih]
    cases hstep with
    | same _ _ _ _ _ _ hsend =>
      rcases hsend with hsend | hkind | hkind
      · exact hsend
      · exact absurd hkind hqueueing
      · exact absurd hkind hwriting
    | note | append | leave | problem | kill | sslNewFree | close | sslEnabled => rfl

end LockRun

section Functions

variable (c : Conn) (e : EventId)

/-! ### The queue and its events -/

theorem connEventFreeListAdd_run : LockRun .plain c (connEventFreeListAdd c e) :=
  .same rfl rfl rfl rfl rfl id rfl

theorem eventQueueAppendEvent_run : LockRun .queueing c (eventQueueAppendEvent c e) := by
  have hlink : LockRun .queueing c { c.setEvent e { c.events e with status := .queued } with
      transaction.queue := c.transaction.queue.append e } := .same rfl rfl rfl rfl rfl id rfl
  exact hlink.tail (.append _ e rfl)

theorem getNextEnqueuedEvent_run : LockRun .plain c (getNextEnqueuedEvent c).2 := by
  unfold getNextEnqueuedEvent
  split <;> exact .same rfl rfl rfl rfl rfl id rfl

theorem getNextEnqueuedBy_run (scan : ConnEventType → Scan) :
    LockRun .plain c (getNextEnqueuedBy scan c).2 := by
  unfold getNextEnqueuedBy
  split <;> exact .same rfl rfl rfl rfl rfl id rfl

theorem connEventNext_run : LockRun .plain c (connEventNext c).2 := by
  unfold connEventNext
  split
  · exact .refl c
  split
  · exact .refl c
  split
  · exact .refl c
  split
  · split
    · exact .refl c
    · exact getNextEnqueuedBy_run c sendScan
  · split
    · exact getNextEnqueuedBy_run c receiveScan
    · exact getNextEnqueuedEvent_run c

/-! ### Cancelling -/

theorem cancelEvent_run : LockRun .plain c (cancelEvent c e) := by
  simp only [cancelEvent]
  refine .setEvent ?_ _ _
  split
  · exact ((LockRun.refl c).note rfl).tail (.sslNewFree _)
  · exact (LockRun.refl c).note rfl

theorem cancelActive_run (k : ConnEventClass) : LockRun .plain c (cancelActive c k e) :=
  ((LockRun.refl c).setEvent e _).tail (.kill _ k)

theorem cancelSlot_run (k : ConnEventClass) (current : Option EventId) :
    LockRun .plain c (cancelSlot c k current) := by
  unfold cancelSlot
  split
  · split
    · exact .refl c
    · exact cancelActive_run c _ k
  · exact .refl c

theorem cancelEventsInProgress_run (current : Option EventId) :
    LockRun .plain c (cancelEventsInProgress c current) := by
  have hboth : LockRun .plain c (cancelSlot (cancelSlot c .send current) .receive current) :=
    (cancelSlot_run c .send current).trans (cancelSlot_run _ .receive current)
  unfold cancelEventsInProgress
  split
  · split
    · exact .refl c
    · split
      · split
        · exact hboth
        · split
          · exact .refl c
          · exact cancelActive_run c _ .connect
      · exact hboth
  · exact .refl c

theorem cancelQueuedEventsLoop_run : ∀ (n : ℕ) (c : Conn),
    LockRun .plain c (cancelQueuedEventsLoop n c)
  | 0, c => .refl c
  | n + 1, c => by
    have hnext := getNextEnqueuedEvent_run c
    simp only [cancelQueuedEventsLoop]
    split
    next heq =>
      rw [heq] at hnext
      exact ((hnext.trans (connEventFreeListAdd_run _ _)).note rfl).trans
        (cancelQueuedEventsLoop_run n _)
    next heq =>
      rw [heq] at hnext
      exact hnext

theorem setAsyncProblem_run (p : AsyncProblem) : LockRun .plain c (setAsyncProblem c p).2 := by
  unfold setAsyncProblem
  split
  · exact (Relation.ReflTransGen.single (.problem c p)).tail (.note _ rfl)
  · exact (LockRun.refl c).note rfl

theorem eventQueueAbort_run (current : Option EventId) (p : AsyncProblem) :
    LockRun .plain c (eventQueueAbort c current p) := by
  have hset := setAsyncProblem_run c p
  unfold eventQueueAbort
  split
  next heq =>
    rw [heq] at hset
    exact (hset.trans (cancelQueuedEventsLoop_run _ _)).trans
      (cancelEventsInProgress_run _ current)
  next heq =>
    rw [heq] at hset
    exact hset

/-! ### Threads inside `ConnEventsProcess` -/

theorem connEventsProcessLeave_run : LockRun .plain c (connEventsProcessLeave c).2 := by
  have hcount : LockRun .plain c
      { c with transaction.threads := c.transaction.threads - 1 } := .same rfl rfl rfl rfl rfl id rfl
  unfold connEventsProcessLeave
  simp only []
  split
  · exact hcount
  split
  · exact hcount
  split
  · exact hcount.note rfl
  split
  · exact hcount.note rfl
  · have hstate : ∀ c : Conn, LockRun .plain c (connChangeState c .asynchronousEngineComplete) := fun _ =>
      .same rfl rfl rfl rfl rfl (fun h => by cases h) rfl
    exact ((hcount.note rfl).trans (hstate _)).note rfl

theorem connEventsProcessLoop_run (connEvent : Option EventId) :
    LockRun .plain c (connEventsProcessLoop c connEvent).2 := by
  have hnext := connEventNext_run c
  unfold connEventsProcessLoop
  split
  · exact .same rfl rfl rfl rfl rfl id rfl
  · split
    next x c' heq =>
      rw [heq] at hnext
      have hset : LockRun .plain c' (connEventInProgressSet c' x) := .same rfl rfl rfl rfl rfl id rfl
      exact ((hnext.trans hset).note rfl).trans (.same rfl rfl rfl rfl rfl id rfl)
    next c' heq =>
      rw [heq] at hnext
      exact hnext.trans (connEventsProcessLeave_run c')

theorem connEventsProcess_run (engineConnEvent : Option EventId) :
    LockRun .plain c (connEventsProcess c engineConnEvent).2 := by
  have henter : LockRun .plain c { c with transaction.threads := c.transaction.threads + 1 } :=
    .same rfl rfl rfl rfl rfl id rfl
  exact (henter.note (x := .enter) rfl).trans (connEventsProcessLoop_run _ _)

theorem captureStats_run : LockRun .plain c (captureStats c e) := by
  unfold captureStats
  split
  · exact .same rfl rfl rfl rfl rfl id rfl
  · exact .same rfl rfl rfl rfl rfl id rfl
  · exact .refl c

theorem handleErrors_run : LockRun .plain c (handleErrors c e) := by
  unfold handleErrors
  simp only []
  split
  · exact cancelEvent_run c e
  split
  · exact eventQueueAbort_run c _ _
  split
  · exact setAsyncProblem_run c _
  split
  · exact (cancelEvent_run c e).trans (eventQueueAbort_run _ _ _)
  · exact .refl c

theorem connEventsProcessResult_run : LockRun .finishing c (connEventsProcessResult c e) := by
  have hclear : LockRun .finishing c (connEventInProgressClear c e) := .same rfl rfl rfl rfl rfl id rfl
  have hleave := hclear.tail (.leave _ e (c.events e).status (c.events e).error (c.events e).source rfl)
  exact ((hleave.trans (captureStats_run _ e).any).trans (handleErrors_run _ e).any).trans
    (connEventFreeListAdd_run _ e).any

theorem connEventsProcessRelock_run (status : ConnEventStatus) :
    LockRun .finishing c (connEventsProcessRelock c e status).2 := by
  unfold connEventsProcessRelock
  split
  · exact (connEventsProcessLoop_run c none).any
  · exact (connEventsProcessResult_run c e).trans (connEventsProcessLoop_run _ none).any

/-! ### The calls of the consumer -/

theorem eventEngineQueueAdd_run : LockRun .queueing c (eventEngineQueueAdd c e) := by
  unfold eventEngineQueueAdd
  split
  · split
    · exact eventQueueAppendEvent_run c e
    · split
      · exact eventQueueAppendEvent_run c e
      · exact (((setAsyncProblem_run c _).trans (connEventFreeListAdd_run _ e)).note rfl).any
  · exact ((connEventFreeListAdd_run c e).note rfl).any

theorem asyncClientEnter_run : LockRun .queueing c (asyncClientEnter c) := by
  have hstate : ∀ c : Conn, LockRun .queueing c (connChangeState c .asynchronousClient) := fun _ =>
    .same rfl rfl rfl rfl rfl (fun h => by cases h) rfl
  unfold asyncClientEnter asyncQueueStatusInit
  split
  · split
    · exact LockRun.trans (.single (.sslEnabled c true rfl)) (hstate _)
    · exact hstate c
  · exact .refl c

theorem bufferedSendDataGet_run : LockRun .queueing c (bufferedSendDataGet c).2 := by
  unfold bufferedSendDataGet
  split
  · exact .single (.same rfl rfl rfl rfl rfl id (.inr (.inl rfl)))
  · exact .refl c

theorem sslDisconnectEventNeeded_run : LockRun .queueing c (sslDisconnectEventNeeded c e).2 := by
  unfold sslDisconnectEventNeeded
  split
  · split
    · exact .single (.sslEnabled c false rfl)
    · exact .refl c
  · exact .single (.sslEnabled c true rfl)
  · exact .single (.sslEnabled c false rfl)
  · exact .refl c

theorem insertEvent_run (newEvent : Option (EventId × ConnEvent)) (source : CodeSource) :
    LockRun .queueing c (insertEvent c newEvent source) := by
  match newEvent with
  | some (f, ce) =>
    exact (((LockRun.refl c).setEvent f _).note rfl).trans
      ((LockRun.note (.refl _) rfl).trans (eventEngineQueueAdd_run _ f))
  | none => exact (eventQueueAbort_run c _ _).any

theorem insertFlush_run (alloc : Option EventId) (source : CodeSource) :
    LockRun .queueing c (insertFlush c e alloc source) := by
  have hbuf : LockRun .queueing c (bufferedSendDataGet c).2 := bufferedSendDataGet_run c
  unfold insertFlush
  split
  · exact .refl c
  split
  next heq =>
    rw [heq] at hbuf
    exact hbuf
  next heq =>
    rw [heq] at hbuf
    exact hbuf.trans (insertEvent_run _ _ _)

theorem insertSslDisconnect_run (alloc : Option EventId) (source : CodeSource) :
    LockRun .queueing c (insertSslDisconnect c e alloc source) := by
  have hneed := sslDisconnectEventNeeded_run c e
  unfold insertSslDisconnect
  split
  next heq =>
    rw [heq] at hneed
    exact hneed
  next heq =>
    rw [heq] at hneed
    exact hneed.trans (insertEvent_run _ _ _)

theorem enqueueEvents_run (allocs : Allocs) (source : CodeSource) :
    LockRun .queueing c (enqueueEvents c e allocs source) :=
  ((insertFlush_run c e _ source).trans (insertSslDisconnect_run _ e _ source)).trans
    ((LockRun.note (.refl _) rfl).trans (eventEngineQueueAdd_run _ e))

theorem eventEnqueue_run {connEvent : Option EventId} {allocs : Allocs} {source : CodeSource}
    {r : Outcome × Conn} (h : eventEnqueue c connEvent allocs source = some r) : LockRun .queueing c r.2 := by
  have hadd : LockRun .queueing c (connEvent.elim (asyncClientEnter c) fun e =>
      enqueueEvents (asyncClientEnter c) e allocs source) := by
    cases connEvent with
    | none => exact asyncClientEnter_run c
    | some e => exact (asyncClientEnter_run c).trans (enqueueEvents_run _ e allocs source)
  simp only [eventEnqueue] at h
  split at h
  · split at h <;> cases h
    · exact hadd
    · exact hadd.trans (connEventsProcess_run _ none).any
  · cases h

theorem eventEnqueueFailure_run (errno : Errno) (source : CodeSource) :
    LockRun .queueing c (eventEnqueueFailure c errno source) := by
  unfold eventEnqueueFailure
  split
  · exact (asyncClientEnter_run c).trans (eventQueueAbort_run _ _ _).any
  · exact .refl c

theorem eventsSubmit_run {qFailure : Bool} {client : ℕ} {source : CodeSource}
    {r : Outcome × Conn} (h : eventsSubmit c qFailure client source = some r) : LockRun .plain c r.2 := by
  have hproblem : LockRun .plain c (if submitProblem c ≠ 0 then
      (setAsyncProblem c ⟨.failed, submitProblem c, source⟩).2 else c) := by
    split
    · exact setAsyncProblem_run c _
    · exact .refl c
  simp only [eventsSubmit] at h
  split at h <;> cases h
  have hengine : ∀ c : Conn, LockRun .plain c (connChangeState c .asynchronousEngine) := fun _ =>
    .same rfl rfl rfl rfl rfl (fun h => by cases h) rfl
  have hclient : ∀ c : Conn, LockRun .plain c { c with qFailure, transaction.client := client } :=
    fun _ => .same rfl rfl rfl rfl rfl id rfl
  exact ((hproblem.trans ((hengine _).note (x := .submit) rfl)).trans (hclient _)).trans
    (connEventsProcess_run _ none)

theorem connKillEx_run (source : CodeSource) : LockRun .plain c (connKillEx c source) := by
  unfold connKillEx
  split
  · exact .single (.close c)
  · exact .single (.close c)
  · exact eventQueueAbort_run c _ _
  · exact eventQueueAbort_run c _ _
  · exact eventQueueAbort_run c _ _
  · exact .refl c

theorem connHandleConnectionsAbort_run (source : CodeSource) :
    LockRun .plain c (connHandleConnectionsAbort c source) := by
  unfold connHandleConnectionsAbort
  split
  · exact .single (.close c)
  · exact .single (.close c)
  · exact eventQueueAbort_run c _ _
  · exact eventQueueAbort_run c _ _
  · exact .refl c

theorem writeClientData_run (async : Bool) (used : Option ℕ) :
    LockRun .writing c (writeClientData c async used) := by
  simp only [writeClientData, connChangeState]
  split
  · exact .single (.same rfl rfl rfl rfl rfl (fun h => by cases h) (.inr (.inr rfl)))
  · exact .single (.same rfl rfl rfl rfl rfl id (.inr (.inr rfl)))

end Functions

/-! ### What is left alone -/

theorem socketEventKill_arg (sp : SOCK) (k k' : ConnEventClass) :
    ((socketEventKill sp k).event.get k').arg = (sp.event.get k').arg := by
  unfold socketEventKill
  by_cases hk : k' = k
  · subst hk
    rw [Slots.get_set_self]
    unfold sockEventKill SocketEvent.complete beginIf
    split <;> split <;> rfl
  · rw [Slots.get_set_of_ne _ hk]

/-- **What a hold of the event lock leaves alone.** -/
structure LockFrame (c c' : Conn) : Prop where
  number : c'.sp.number = c.sp.number ∨ c'.sp.number = none
  sslConn : c'.sp.sslConn = c.sp.sslConn
  sslNew : c'.sp.sslNew = c.sp.sslNew ∨ c'.sp.sslNew = none
  arg : ∀ k, (c'.sp.event.get k).arg = (c.sp.event.get k).arg
  receiveBuffer : c'.receiveBuffer = c.receiveBuffer
  problem : c.transaction.problem ≠ none → c'.transaction.problem ≠ none
  calls : calls c'.log = calls c.log

namespace LockFrame

variable {c c' c'' : Conn}

theorem refl (c : Conn) : LockFrame c c := ⟨.inl rfl, rfl, .inl rfl, fun _ => rfl, rfl, id, rfl⟩

theorem trans (h : LockFrame c c') (h' : LockFrame c' c'') : LockFrame c c'' := by
  refine ⟨?_, h'.sslConn.trans h.sslConn, ?_, fun k => (h'.arg k).trans (h.arg k),
    h'.receiveBuffer.trans h.receiveBuffer, fun hp => h'.problem (h.problem hp),
    h'.calls.trans h.calls⟩
  · rcases h'.number with h1 | h1
    · rw [h1]
      exact h.number
    · exact .inr h1
  · rcases h'.sslNew with h1 | h1
    · rw [h1]
      exact h.sslNew
    · exact .inr h1

/-- The socket and the receive buffer stay, and no problem is taken back. -/
theorem of_same (hsp : c'.sp = c.sp) (hbuf : c'.receiveBuffer = c.receiveBuffer)
    (hp : c'.transaction.problem = c.transaction.problem)
    (hlog : Connio.calls c'.log = Connio.calls c.log) : LockFrame c c' :=
  ⟨.inl (by rw [hsp]), by rw [hsp], .inl (by rw [hsp]), fun k => by rw [hsp], hbuf,
    fun h => hp ▸ h, hlog⟩

theorem note {x : LogEntry} (h : LockFrame c c') (hx : x.isCall = false) :
    LockFrame c (c'.note x) := by
  refine h.trans (.of_same rfl rfl rfl ?_)
  show List.filter LogEntry.isCall (x :: c'.log) = _
  rw [List.filter_cons_of_neg (by simp [hx])]
  rfl

theorem setEvent (h : LockFrame c c') (e : EventId) (ce : ConnEvent) :
    LockFrame c (c'.setEvent e ce) :=
  h.trans (.of_same rfl rfl rfl rfl)

end LockFrame

/-- **A run under the event lock leaves alone what the process functions work on (proved).** -/
theorem LockRun.frame {kind : LockKind} {c c' : Conn} (h : LockRun kind c c') : LockFrame c c' := by
  induction h with
  | refl => exact .refl c
  | tail _ hstep ih =>
    refine ih.trans ?_
    cases hstep with
    | same hsp hbuf hp _ hlog _ _ => exact .of_same hsp hbuf hp (by rw [hlog])
    | @note x hx =>
      have hcall : x.isCall = false := by
        simp only [LogEntry.isBookkeeping, Bool.and_eq_true, Bool.not_eq_true'] at hx
        exact hx.1.1.1
      exact (LockFrame.refl _).note hcall
    | problem => exact ⟨.inl rfl, rfl, .inl rfl, fun _ => rfl, rfl, fun _ => by simp, rfl⟩
    | kill k => exact ⟨.inl rfl, rfl, .inl rfl, fun k' => socketEventKill_arg _ k k', rfl, id, rfl⟩
    | sslNewFree => exact ⟨.inl rfl, rfl, .inr rfl, fun _ => rfl, rfl, id, rfl⟩
    | close => exact ⟨.inr rfl, rfl, .inl rfl, fun _ => rfl, rfl, id, rfl⟩
    | append e _ => exact (LockFrame.refl _).note rfl
    | sslEnabled => exact .of_same rfl rfl rfl rfl
    | leave => exact (LockFrame.refl _).note rfl

end Connio
