import Connio.Active
import Connio.Socket

/-!
# The asynchronous event queue

The functions of `queue.c`, each as it runs under the event lock, with the parts of `connio.c` and
`process.c` that release an event's resources.  A function that hands back a pointer returns it beside
the new conn.

* the free list and the doubly linked queue (`connEventFreeListAdd` ... `getNextEnqueuedReceiveEvent`);
* cancelling (`cancelEvent`, `cancelEventsInProgress`, `cancelQueuedEvents`, `setAsyncProblem`,
  `eventQueueAbort`);
* `connEventNext` — which queued event can be started;
* `connEventsProcess` — split where it releases the event lock: `connEventsProcess` enters,
  `connEventsProcessLoop` picks the next event or leaves, `connEventsProcessRelock` goes on with the
  status of a processed event;
* `eventEnqueue`, `eventEnqueueFailure`, `eventsSubmit`, `prepareForCallback`;
* `connEventFreeResources`, `connEventFree`, `socketEventComplete`, `socketEventAbort`.
-/

namespace Connio

open Connio.Lib

/-! ### Resources of an event -/

/-- `ConnEventFreeResources` for an asynchronous event -/
def connEventFreeResources (c : Conn) (e : EventId) : Conn :=
  let ce := c.events e
  if ce.type = .connect then
    c.setEvent e { ce with addrDst := false, addrSrc := false }
  else if ce.type = .writeFromClientBuffer then
    if ce.bufferStart then (c.setEvent e { ce with bufferStart := false }).note (.freeCB e) else c
  else if ce.type.eventClass = .send then
    if ce.ioBuffer then (c.setEvent e { ce with ioBuffer := false }).note (.iobFree e) else c
  else c

/-- `ConnEventFree` -/
def connEventFree (c : Conn) (e : EventId) : Conn := (connEventFreeResources c e).note (.memFree e)

/-- `ConnEventFreeListDestroy` -/
def connEventFreeListDestroy (c : Conn) (freeList : List EventId) : Conn :=
  freeList.foldl connEventFree c

/-- Give a client buffer back (`socketEventComplete`, `socketEventAbort`). -/
def clientBufferFree (c : Conn) (e : EventId) : Conn :=
  let ce := c.events e
  if ce.bufferStart then (c.setEvent e { ce with bufferStart := false }).note (.freeCB e) else c

/-- `socketEventComplete` (`process.c`) -/
def socketEventComplete (c : Conn) (e : EventId) : Conn :=
  match c.typeOf e with
  | .writeFromClientBuffer => clientBufferFree c e
  | .disconnect => { c with sp := socketClose c.sp }
  | _ => c

/-- `socketEventAbort` (`process.c`) -/
def socketEventAbort (c : Conn) (e : EventId) : Conn :=
  match c.typeOf e with
  | .writeFromClientBuffer => clientBufferFree c e
  | .connect | .disconnect => { c with sp := socketClose c.sp }
  | .sslAccept | .tlsAccept | .sslConnect | .tlsConnect | .sslDisconnect =>
    { c with sp := socketSSLAbort c.sp }
  | _ => c

/-! ### The free list and the queue -/

def connEventFreeListAdd (c : Conn) (e : EventId) : Conn :=
  { c with transaction.freeList := e :: c.transaction.freeList }

def connEventFreeListGrab (c : Conn) : List EventId × Conn :=
  (c.transaction.freeList, { c with transaction.freeList := [] })

def eventQueueAppendEvent (c : Conn) (e : EventId) : Conn :=
  { c.setEvent e { c.events e with status := .queued } with
    transaction.queue := c.transaction.queue.append e }.note (.append e)

def eventQueueRemoveEvent (c : Conn) (e : EventId) : Conn :=
  { c with transaction.queue := c.transaction.queue.remove e }

def getNextEnqueuedEvent (c : Conn) : Option EventId × Conn :=
  match c.transaction.queue.head with
  | some e => (some e, eventQueueRemoveEvent c e)
  | none => (none, c)

/-- What `GetNextEnqueuedSendEvent` does at an event of this type. -/
def sendScan (t : ConnEventType) : Scan :=
  match t.eventClass with
  | .receive => .skip
  | .send => .take
  | .connect => .stop

/-- What `GetNextEnqueuedReceiveEvent` does at an event of this type. -/
def receiveScan (t : ConnEventType) : Scan :=
  match t.eventClass with
  | .receive => .take
  | .send => .skip
  | .connect => .stop

/-- Search the queue and remove the event that is found. -/
def getNextEnqueuedBy (scan : ConnEventType → Scan) (c : Conn) : Option EventId × Conn :=
  match c.transaction.queue.search fun e => scan (c.typeOf e) with
  | some e => (some e, eventQueueRemoveEvent c e)
  | none => (none, c)

def getNextEnqueuedSendEvent (c : Conn) : Option EventId × Conn := getNextEnqueuedBy sendScan c

def getNextEnqueuedReceiveEvent (c : Conn) : Option EventId × Conn := getNextEnqueuedBy receiveScan c

/-! ### Cancelling -/

def cancelEvent (c : Conn) (e : EventId) : Conn :=
  let c := c.note (.cancel e)
  let c := if (c.typeOf e).isHandshake then { c with sp := socketSSLNewFree c.sp } else c
  c.setEvent e { c.events e with error := Errno.ecanceled }

/-- Mark an active event cancelled and kill the `SocketEvent` of its slot. -/
def cancelActive (c : Conn) (k : ConnEventClass) (e : EventId) : Conn :=
  { c.setEvent e { c.events e with error := Errno.ecanceled } with sp := socketEventKill c.sp k }

/-- Cancel the event in slot `k` unless it is the current one. -/
def cancelSlot (c : Conn) (k : ConnEventClass) (current : Option EventId) : Conn :=
  match c.activeEvent.get k with
  | some e => if some e = current then c else cancelActive c k e
  | none => c

def cancelEventsInProgress (c : Conn) (current : Option EventId) : Conn :=
  if connEventsInProgress c then
    if c.sp.number = none then c
    else
      match c.activeEvent.connect with
      | some e =>
        if some e = current then cancelSlot (cancelSlot c .send current) .receive current
        else if c.typeOf e = .disconnect ∨ c.typeOf e = .sslDisconnect then c
        else cancelActive c .connect e
      | none => cancelSlot (cancelSlot c .send current) .receive current
  else c

/-- The loop of `CancelQueuedEvents`; it removes one event a round, so the count bounds it. -/
def cancelQueuedEventsLoop : ℕ → Conn → Conn
  | 0, c => c
  | n + 1, c =>
    match getNextEnqueuedEvent c with
    | (some e, c') => cancelQueuedEventsLoop n ((connEventFreeListAdd c' e).note (.discard e))
    | (none, c') => c'

def cancelQueuedEvents (c : Conn) : Conn := cancelQueuedEventsLoop c.transaction.queue.count c

/-- TRUE when this is the first problem of the transaction. -/
def setAsyncProblem (c : Conn) (p : AsyncProblem) : Bool × Conn :=
  match c.transaction.problem with
  | none => (true, { c with transaction.problem := some p }.note (.report p))
  | some _ => (false, c.note (.report p))

def eventQueueAbort (c : Conn) (current : Option EventId) (p : AsyncProblem) : Conn :=
  match setAsyncProblem c p with
  | (true, c') => cancelEventsInProgress (cancelQueuedEvents c') current
  | (false, c') => c'

/-! ### Starting events -/

def connEventNext (c : Conn) : Option EventId × Conn :=
  if c.transaction.problem.isSome then (none, c)
  else if c.transaction.queue.head = none then (none, c)
  else if c.activeEvent.connect.isSome then (none, c)
  else if c.activeEvent.receive.isSome then
    if c.activeEvent.send.isSome then (none, c) else getNextEnqueuedSendEvent c
  else if c.activeEvent.send.isSome then getNextEnqueuedReceiveEvent c
  else getNextEnqueuedEvent c

/-- What a thread inside `ConnEventsProcess` does when it gives the event lock back: it processes an
event after destroying the free list it grabbed, or it returns. -/
inductive Outcome where
  | work (e : EventId) (freeList : List EventId)
  | leave (stillWorking : Bool)
  deriving DecidableEq, Repr

/-- The end of `ConnEventsProcess`, from the decrement of the thread count. -/
def connEventsProcessLeave (c : Conn) : Bool × Conn :=
  let c := { c with transaction.threads := c.transaction.threads - 1 }
  if c.transaction.queue.head.isSome then (true, c)
  else if connEventsInProgress c then (true, c)
  else
    let c := c.note (.lastTest c.state)
    if c.state = .asynchronousClient then (true, c)
    else if c.transaction.threads > 0 then (true, c)
    else (false, (connChangeState c .asynchronousEngineComplete).note .done)

/-- The head of the loop, with the event lock held. -/
def connEventsProcessLoop (c : Conn) (connEvent : Option EventId) : Outcome × Conn :=
  match connEvent with
  | some e =>
    let (freeList, c) := connEventFreeListGrab c
    (.work e freeList, c)
  | none =>
    match connEventNext c with
    | (some e, c) =>
      let c := (connEventInProgressSet c e).note (.start e)
      let (freeList, c) := connEventFreeListGrab c
      (.work e freeList, c)
    | (none, c) =>
      let (stillWorking, c) := connEventsProcessLeave c
      (.leave stillWorking, c)

def connEventsProcess (c : Conn) (engineConnEvent : Option EventId) : Outcome × Conn :=
  connEventsProcessLoop
    ({ c with transaction.threads := c.transaction.threads + 1 }.note .enter) engineConnEvent

/-- Capture the transaction's byte counts. -/
def captureStats (c : Conn) (e : EventId) : Conn :=
  match c.classOf e with
  | .receive =>
    { c with transaction.received := c.transaction.received + (c.events e).transferred }
  | .send => { c with transaction.sent := c.transaction.sent + (c.events e).transferred }
  | .connect => c

/-- The error handling for an event that is complete or failed. -/
def handleErrors (c : Conn) (e : EventId) : Conn :=
  let ce := c.events e
  if c.transaction.problem.isSome then cancelEvent c e
  else if ce.status = .timedOut ∨ ce.status = .failed ∨ ce.status = .killed then
    eventQueueAbort c (some e) ⟨ce.status, ce.error, ce.source⟩
  else if ce.status = .partialResult then
    (setAsyncProblem c ⟨ce.status, ce.error, ce.source⟩).2
  else if c.shuttingDown = true ∧ ce.type.isShutdown = false then
    eventQueueAbort (cancelEvent c e) (some e) ⟨.killed, Errno.eshutdown, ce.source⟩
  else c

/-- Everything done under the event lock for an event that is complete or failed. -/
def connEventsProcessResult (c : Conn) (e : EventId) : Conn :=
  let ce := c.events e
  let c := (connEventInProgressClear c e).note (.leave e ce.status ce.error ce.source)
  connEventFreeListAdd (handleErrors (captureStats c e) e) e

/-- The rest of the loop after `ConnEventProcess` has returned `status`. -/
def connEventsProcessRelock (c : Conn) (e : EventId) (status : ConnEventStatus) : Outcome × Conn :=
  if status = .inProgress then connEventsProcessLoop c none
  else connEventsProcessLoop (connEventsProcessResult c e) none

/-! ### The consumer's side -/

def queueingPermitted (c : Conn) : Bool :=
  match c.state with
  | .idle | .asynchronousClient => true
  | _ => false

/-- `0` is no problem. -/
def submitProblem (c : Conn) : Errno :=
  match c.state with
  | .asynchronousClient => 0
  | .idle => Errno.eperm
  | .asynchronousEngineComplete | .asynchronousEngine | .synchronous | .synchronousListener
  | .asynchronousListener => Errno.ebusy
  | .cached | .free => Errno.einval

def eventEngineQueueAdd (c : Conn) (e : EventId) : Conn :=
  if c.transaction.problem = none then
    if c.shuttingDown = false then eventQueueAppendEvent c e
    else if (c.typeOf e).isShutdown then eventQueueAppendEvent c e
    else
      let c := (setAsyncProblem c ⟨.killed, Errno.eshutdown, (c.events e).source⟩).2
      (connEventFreeListAdd c e).note (.drop e)
  else (connEventFreeListAdd c e).note (.drop e)

def asyncQueueStatusInit (c : Conn) : Conn :=
  if c.sp.number.isSome ∧ c.sp.sslConn.isSome then { c with transaction.sslEnabled := true } else c

/-- The conn enters client mode with its first asynchronous event. -/
def asyncClientEnter (c : Conn) : Conn :=
  if c.state ≠ .asynchronousClient then
    connChangeState (asyncQueueStatusInit c) .asynchronousClient
  else c

/-- `sslDisconnectEventNeeded` -/
def sslDisconnectEventNeeded (c : Conn) (e : EventId) : Bool × Conn :=
  match c.typeOf e with
  | .disconnect =>
    if c.transaction.sslEnabled then (true, { c with transaction.sslEnabled := false })
    else (false, c)
  | .sslConnect => (false, { c with transaction.sslEnabled := true })
  | .sslDisconnect => (false, { c with transaction.sslEnabled := false })
  | _ => (false, c)

/-- Queue an event `EventEnqueue` inserts itself; `none` is a failed allocation. -/
def insertEvent (c : Conn) (newEvent : Option (EventId × ConnEvent)) (source : CodeSource) : Conn :=
  match newEvent with
  | some (e, ce) =>
    let c := (c.setEvent e { ce with inserted := true }).note (.alloc e)
    eventEngineQueueAdd (c.note (.accept e)) e
  | none => eventQueueAbort c none ⟨.failed, Errno.enomem, source⟩

/-- `FlushAEventNeededEx` and the insertion of the flush event; `alloc` is the result of the
allocation. -/
def insertFlush (c : Conn) (e : EventId) (alloc : Option EventId) (source : CodeSource) : Conn :=
  if c.classOf e = .send then c
  else
    match bufferedSendDataGet c with
    | (false, c) => c
    | (true, c) =>
      insertEvent c (alloc.map fun f => (f, { type := .flush, source := source, ioBuffer := true }))
        source

/-- The insertion of an SSL disconnect before a disconnect. -/
def insertSslDisconnect (c : Conn) (e : EventId) (alloc : Option EventId) (source : CodeSource) :
    Conn :=
  match sslDisconnectEventNeeded c e with
  | (false, c) => c
  | (true, c) =>
    insertEvent c (alloc.map fun d => (d, { type := .sslDisconnect, source := source })) source

/-- What the allocator answers when `EventEnqueue` needs a flush event and an SSL disconnect event. -/
structure Allocs where
  flush : Option EventId
  sslDisconnect : Option EventId
  deriving DecidableEq, Repr

/-- The part of `EventEnqueue` that queues `connEvent` and the events that must precede it. -/
def enqueueEvents (c : Conn) (e : EventId) (allocs : Allocs) (source : CodeSource) : Conn :=
  let c := insertFlush c e allocs.flush source
  let c := insertSslDisconnect c e allocs.sslDisconnect source
  eventEngineQueueAdd (c.note (.accept e)) e

/-- `EventEnqueue` up to the release of the event lock; `none` is the FALSE return. -/
def eventEnqueue (c : Conn) (connEvent : Option EventId) (allocs : Allocs) (source : CodeSource) :
    Option (Outcome × Conn) :=
  if queueingPermitted c then
    let c := asyncClientEnter c
    let c := connEvent.elim c fun e => enqueueEvents c e allocs source
    if c.waitForSubmit then some (.leave true, c) else some (connEventsProcess c none)
  else none

/-- `EventEnqueueFailure` with the `errno` it finds -/
def eventEnqueueFailure (c : Conn) (errno : Errno) (source : CodeSource) : Conn :=
  if queueingPermitted c then
    eventQueueAbort (asyncClientEnter c) none ⟨.failed, errno, source⟩
  else c

/-- `EventsSubmit` up to the release of the event lock; `none` is the FALSE return. -/
def eventsSubmit (c : Conn) (qFailure : Bool) (client : ℕ) (source : CodeSource) :
    Option (Outcome × Conn) :=
  let err := submitProblem c
  if err ≠ 0 ∧ err ≠ Errno.eperm then none
  else
    let c := if err ≠ 0 then (setAsyncProblem c ⟨.failed, err, source⟩).2 else c
    let c := (connChangeState c .asynchronousEngine).note .submit
    let c := { c with qFailure := qFailure, transaction.client := client }
    some (connEventsProcess c none)

/-- `connKillEx`: an idle conn is closed, a queue is aborted. -/
def connKillEx (c : Conn) (source : CodeSource) : Conn :=
  match c.state with
  | .idle | .synchronous => { c with sp := socketClose c.sp }
  | .asynchronousEngineComplete | .asynchronousEngine | .asynchronousClient =>
    eventQueueAbort c none ⟨.killed, Errno.ecanceled, source⟩
  | _ => c

/-- `ConnHandleConnectionsAbortEx` for one conn of the handle -/
def connHandleConnectionsAbort (c : Conn) (source : CodeSource) : Conn :=
  match c.state with
  | .idle | .synchronous => { c with sp := socketClose c.sp }
  | .asynchronousEngine | .asynchronousClient =>
    eventQueueAbort c none ⟨.killed, Errno.eshutdown, source⟩
  | _ => c

/-! ### The end of a transaction -/

def preserveAsyncSummary (t : AsyncTransaction) : AsyncSummary where
  sent := t.sent
  received := t.received
  client := t.client
  problem := t.problem.map fun p => (p.error, p.source)
  status := match t.problem with
    | none => .complete
    | some p => p.status

def prepareForCallback (c : Conn) : AsyncSummary × List EventId × Conn :=
  let (freeList, c) := connEventFreeListGrab c
  let summary := preserveAsyncSummary c.transaction
  let c := { c with transaction := {} }.note (.prepare summary)
  (summary, freeList, connChangeState c .idle)

/-- `CallbackAsyncConsumer` after the free list has been destroyed: which callback is called. -/
def callbackAsyncConsumer (c : Conn) (summary : AsyncSummary) : Conn :=
  let success := decide (summary.status = .complete) || decide (summary.status = .partialResult)
  c.note (.callback (success || !c.qFailure) c.qFailure summary)

end Connio
