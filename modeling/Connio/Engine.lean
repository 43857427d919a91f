import Connio.Process
import Connio.QueueRefinement

/-!
# One conn and all that runs on it

The asynchronous side of one conn as a transition system: the consumer's calls, any number of threads
inside `ConnEventsProcess`, the socket engine, the callback threads it begins, and the threads that call
the consumer back.  A step is one hold of the event lock, or one step of a thread between two holds.

* `Worker` — a thread inside `ConnEventsProcess` that has given the event lock back;
* `Callback` — a thread inside `HandleSocketEvent` or `AsyncEventCallback`;
* `Completion` — a thread inside `QueueCompleteCallback`;
* `AsyncSystem`, `AsyncAction`, `asyncStep` — the system, who moves and what is answered, one step;
* `AsyncSystem.Initial` — a new conn;
* `queueRun`, `processRun` — the actions of a consumer call and of a thread, for runs on fixed inputs.
-/

namespace Connio

open Connio.Lib

structure Worker where
  event : EventId
  stage : Stage
  deriving DecidableEq, Repr

/-- The arguments `HandleSocketEvent` captured; `stored` once `AsyncEventCallback` has written
`ce->error`. -/
structure Callback where
  event : EventId
  type : SocketEventType
  error : Errno
  stored : Bool
  deriving DecidableEq, Repr

/-- Where a thread inside `QueueCompleteCallback` is.  `mark` is the history at the end of its
transaction; no modelled function reads it. -/
inductive Completion where
  /-- about to take the event lock -/
  | starting
  /-- about to destroy the free list of the transaction -/
  | destroying (summary : AsyncSummary) (freeList : List EventId) (mark : List LogEntry)
  /-- about to call the consumer -/
  | calling (summary : AsyncSummary) (mark : List LogEntry)
  deriving DecidableEq, Repr

structure AsyncSystem where
  conn : Conn
  workers : List Worker
  callbacks : List Callback
  completions : List Completion
  /-- events a consumer call has allocated and not yet given to `EventEnqueue` -/
  caller : List EventId
  /-- events for which `EventEnqueue` returned FALSE -/
  refused : List EventId

inductive AsyncAction where
  /-- a consumer call allocates an event and assigns it -/
  | alloc (e : EventId) (ce : ConnEvent)
  | enqueue (connEvent : Option EventId) (allocs : Allocs) (source : CodeSource)
  | enqueueFailure (errno : Errno) (source : CodeSource)
  | submit (qFailure : Bool) (client : ℕ) (source : CodeSource)
  /-- `connKillEx` -/
  | kill (source : CodeSource)
  /-- `ConnHandleConnectionsAbortEx` -/
  | handleAbort (source : CodeSource)
  /-- the abort of `ConnAWriteFromBufferEx`, which takes no lock, as one step (`UnlockedAbort` has its steps) -/
  | writeAbort (source : CodeSource)
  /-- `handle->shuttingDown` becomes TRUE -/
  | shuttingDown
  /-- the handle's `CONN_HANDLE_DYN_FLAG_WAIT_FOR_SUBMIT` is set or cleared -/
  | waitForSubmit (wait : Bool)
  /-- a write fills the send buffer, or a flush takes it -/
  | sendBuffer (async : Bool) (used : Option ℕ)
  /-- the caller frees an event that is not queued -/
  | free (e : EventId)
  /-- a thread inside `ConnEventsProcess` makes its next step without the event lock -/
  | work (w : Worker) (m : StageMove)
  /-- a thread inside `ConnEventsProcess` takes the event lock again -/
  | relock (w : Worker)
  | pollReady (k : ConnEventClass) (events : PollEvents)
  | pollTimeout (k : ConnEventClass)
  /-- `HandleSocketEvent` -/
  | handle (k : ConnEventClass)
  /-- `AsyncEventCallback` writes `ce->error` -/
  | store (cb : Callback)
  /-- `AsyncEventCallback` takes the event lock -/
  | enter (cb : Callback)
  /-- `QueueCompleteCallback` takes the event lock -/
  | prepare
  /-- `CallbackAsyncConsumer` destroys the free list -/
  | destroy (x : Completion)
  /-- `CallbackAsyncConsumer` calls the consumer -/
  | call (x : Completion)

/-- The thread goes where the outcome says; FALSE notifies the completion thread. -/
def AsyncSystem.outcome (s : AsyncSystem) (r : Outcome × Conn) : AsyncSystem :=
  match r.1 with
  | .work e freeList =>
    { s with conn := r.2, workers := ⟨e, .destroying freeList⟩ :: s.workers }
  | .leave true => { s with conn := r.2 }
  | .leave false => { s with conn := r.2, completions := .starting :: s.completions }

/-- The `ce->error` that `AsyncEventCallback` stores: a reset is what a disconnect asked for. -/
def asyncEventError (type : ConnEventType) (socketType : SocketEventType) (error : Errno) : Errno :=
  if socketType = .readable ∧ type = .disconnect ∧ error = Errno.econnreset then 0 else error

/-- The allocations of `EventEnqueue` return fresh memory. -/
def Allocs.fresh (allocs : Allocs) (log : List LogEntry) : Bool :=
  allocs.flush.all (fun f => decide (f ∉ allocated log)) &&
    allocs.sslDisconnect.all (fun d => decide (d ∉ allocated log)) &&
    allocs.flush.all (fun f => decide (allocs.sslDisconnect ≠ some f))

/-- A new event owns its resources and has no error. -/
def ConnEvent.assigned (ce : ConnEvent) : Bool :=
  decide (ce.error = 0) && decide (ce.type = .writeFromClientBuffer → ce.bufferStart = true) &&
    decide (ce.type.eventClass = .send → ce.type ≠ .writeFromClientBuffer → ce.ioBuffer = true)

/-- `EventEnqueue`; TRUE hands the event over, FALSE leaves it with its caller. -/
def AsyncSystem.enqueue (s : AsyncSystem) (connEvent : Option EventId) (allocs : Allocs)
    (source : CodeSource) : AsyncSystem :=
  let s' := { s with caller := connEvent.elim s.caller s.caller.erase }
  match eventEnqueue s.conn connEvent allocs source with
  | some r => s'.outcome r
  | none =>
    connEvent.elim s fun e => { s' with conn := s.conn.note (.refuse e), refused := e :: s.refused }

/-- One step of the system; `none` when the action is not enabled. -/
def asyncStep (s : AsyncSystem) : AsyncAction → Option AsyncSystem
  | .alloc e ce =>
    if e ∉ allocated s.conn.log ∧ ce.assigned then
      some { s with conn := (s.conn.setEvent e ce).note (.alloc e), caller := e :: s.caller }
    else none
  | .enqueue connEvent allocs source =>
    if (∀ e ∈ connEvent, e ∈ s.caller) ∧ allocs.fresh s.conn.log then
      some (s.enqueue connEvent allocs source)
    else none
  | .enqueueFailure errno source =>
    some { s with conn := eventEnqueueFailure s.conn errno source }
  | .submit qFailure client source =>
    match eventsSubmit s.conn qFailure client source with
    | some r => some (s.outcome r)
    | none => some s
  | .kill source => some { s with conn := connKillEx s.conn source }
  | .handleAbort source => some { s with conn := connHandleConnectionsAbort s.conn source }
  | .writeAbort source =>
    some { s with conn := eventQueueAbort s.conn none ⟨.failed, Errno.enomem, source⟩ }
  | .shuttingDown => some { s with conn := { s.conn with shuttingDown := true } }
  | .waitForSubmit wait => some { s with conn := { s.conn with waitForSubmit := wait } }
  | .sendBuffer async used => some { s with conn := writeClientData s.conn async used }
  | .free e =>
    if e ∈ s.caller then
      some { s with conn := connEventFree s.conn e, caller := s.caller.erase e }
    else if e ∈ s.refused then
      some { s with conn := connEventFree s.conn e, refused := s.refused.erase e }
    else none
  | .work w m =>
    if w ∈ s.workers then
      match eventProcessStep s.conn w.event w.stage m with
      | some (stage, c) =>
        some { s with conn := c, workers := ⟨w.event, stage⟩ :: s.workers.erase w }
      | none => none
    else none
  | .relock w =>
    match w.stage with
    | .returned status =>
      if w ∈ s.workers then
        some ({ s with workers := s.workers.erase w }.outcome
          (connEventsProcessRelock s.conn w.event status))
      else none
    | _ => none
  | .pollReady k events => some { s with conn := { s.conn with sp := pollReady s.conn.sp k events } }
  | .pollTimeout k => some { s with conn := { s.conn with sp := pollTimeout s.conn.sp k } }
  | .handle k =>
    match handleSocketEvent s.conn.sp k with
    | some (e, type, error, sp) =>
      some { s with
        conn := { s.conn with sp := sp }
        callbacks := ⟨e, type, error, false⟩ :: s.callbacks }
    | none => none
  | .store cb =>
    if cb ∈ s.callbacks ∧ cb.stored = false then
      some { s with
        conn := s.conn.setError cb.event
          (asyncEventError (s.conn.typeOf cb.event) cb.type cb.error)
        callbacks := { cb with stored := true } :: s.callbacks.erase cb }
    else none
  | .enter cb =>
    if cb ∈ s.callbacks ∧ cb.stored = true then
      some ({ s with callbacks := s.callbacks.erase cb }.outcome
        (connEventsProcess s.conn (some cb.event)))
    else none
  | .prepare =>
    if .starting ∈ s.completions then
      let (summary, freeList, c) := prepareForCallback s.conn
      some { s with
        conn := c
        completions := .destroying summary freeList c.log :: s.completions.erase .starting }
    else none
  | .destroy x =>
    match x with
    | .destroying summary freeList mark =>
      if x ∈ s.completions then
        some { s with
          conn := connEventFreeListDestroy s.conn freeList
          completions := .calling summary mark :: s.completions.erase x }
      else none
    | _ => none
  | .call x =>
    match x with
    | .calling summary _ =>
      if x ∈ s.completions then
        some { s with
          conn := callbackAsyncConsumer s.conn summary
          completions := s.completions.erase x }
      else none
    | _ => none

/-- A conn that has just been allocated, with any socket that is not in the engine. -/
structure AsyncSystem.Initial (s : AsyncSystem) : Prop where
  queue : s.conn.transaction.queue = DList.empty
  freeList : s.conn.transaction.freeList = []
  problem : s.conn.transaction.problem = none
  threads : s.conn.transaction.threads = 0
  active : ∀ k, s.conn.activeEvent.get k = none
  state : s.conn.state = .idle
  log : s.conn.log = []
  socket : ∀ k, s.conn.sp.event.get k = {}
  workers : s.workers = []
  callbacks : s.callbacks = []
  completions : s.completions = []
  caller : s.caller = []
  refused : s.refused = []

/-! ### Runs -/

/-- A new conn on socket `number`. -/
def AsyncSystem.new (number : Option ℕ) : AsyncSystem where
  conn := connAlloc number
  workers := []
  callbacks := []
  completions := []
  caller := []
  refused := []

theorem AsyncSystem.new_initial (number : Option ℕ) : (AsyncSystem.new number).Initial := by
  refine ⟨rfl, rfl, rfl, rfl, fun k => ?_, rfl, rfl, fun k => ?_, rfl, rfl, rfl, rfl, rfl⟩ <;>
    cases k <;> rfl

/-- The steps of a thread that processes `e`, from its start to the return of `ConnEventProcess`. -/
def processRun (e : EventId) (moves : List (Stage × StageMove)) (status : ConnEventStatus) :
    List AsyncAction :=
  moves.map (fun m => .work ⟨e, m.1⟩ m.2) ++ [.relock ⟨e, .returned status⟩]

/-- A consumer call allocates an event and queues it. -/
def queueRun (e : EventId) (ce : ConnEvent) : List AsyncAction :=
  [.alloc e ce, .enqueue (some e) ⟨none, none⟩ ce.source]

end Connio
