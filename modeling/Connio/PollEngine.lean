import Connio.Socket

/-!
# The poll thread, its timeout lists and the locks

One poll thread and any number of other threads that submit, kill and handle events of its engine (`sockunix.c`,
`sockcommon.c`), lock by lock: each `slock` of a `SOCK` and each lock of a timeout list is taken and released by a step
of its own, and a thread that is about to take a lock waits until it is free.

* `TimedEvent`, `EngineOp` — a `SocketEvent` with its timeout, and what a thread does to one under its `slock`;
* `LockTask`, `PollState`, `PollEngine` — where a thread is, and the engine with its locks;
* `EngineMove`, `pollStep` — who moves, and one step;
* `PollEngine.WaitsFor` — a thread waits for a lock that another one has.

A thread of `HandleSocketEvent` is begun by the thread that has completed the event.
-/

namespace Connio

open Connio.Lib

/-! ### Events and what is done to them -/

/-- A `SocketEvent` of a `SOCK`. -/
structure EventRef where
  cs : ℕ
  k : ConnEventClass
  deriving DecidableEq, Repr

inductive EngineThread where
  | poll
  | worker (i : ℕ)
  deriving DecidableEq, Repr

/-- Who has to see to a submission.  Only `start` reads it. -/
inductive EventToken where
  /-- there is none -/
  | none
  /-- it is in the engine -/
  | engine
  /-- this thread has completed it, and is about to call `AThreadBegin` -/
  | beginning (t : EngineThread)
  /-- a thread of `HandleSocketEvent` has been begun -/
  | begun
  /-- this thread runs `HandleSocketEvent` -/
  | handling (t : EngineThread)
  deriving DecidableEq, Repr

structure TimedEvent where
  se : SocketEvent := {}
  /-- the calls of `SocketEventWaitEx` that returned 0 -/
  submissions : ℕ := 0
  /-- `FSE_TIMEOUT_PENDING` -/
  pending : Bool := false
  /-- the list the event is on -/
  timeoutList : Option ℕ := none
  token : EventToken := .none
  deriving DecidableEq, Repr

/-- What a thread does to an event while it has the `slock`. -/
inductive EngineOp where
  /-- `SocketEventWaitEx`; `err`: `ENOTSOCK`, or the errno of `epoll_ctl`; `timeout`: the list of its timeout -/
  | submit (e : EventRef) (type : SocketEventType) (cbArg : EventId) (err : Errno) (timeout : Option ℕ)
  /-- `SocketEventKill` -/
  | kill (e : EventRef)
  /-- `HandleSocketEvent` -/
  | handle (e : EventRef)
  /-- the poll thread handles an entry of its array -/
  | ready (e : EventRef) (events : PollEvents)
  /-- the second loop of the expiry; `m`: the submission that was on the list -/
  | expire (e : EventRef) (m : ℕ)
  deriving DecidableEq, Repr

def EngineOp.event : EngineOp → EventRef
  | submit e _ _ _ _ | kill e | handle e | ready e _ | expire e _ => e

/-- An event leaves the engine in the thread `t`, with `_SocketTimeoutDelete`; `r` is what is left of it. -/
def TimedEvent.leave (ev : TimedEvent) (t : EngineThread) (r : Bool × SocketEvent) : Bool × TimedEvent :=
  (r.1, { ev with
    se := r.2
    pending := false
    timeoutList := if ev.pending then none else ev.timeoutList
    token := if r.1 then .beginning t else ev.token })

/-- The list whose lock an operation takes. -/
def EngineOp.needs (op : EngineOp) (ev : TimedEvent) : Option ℕ :=
  match op with
  | .submit _ _ _ err timeout => if ev.se.arg.isNone ∧ err = 0 ∧ ev.timeoutList.isNone then timeout else none
  | .kill _ | .expire _ _ => if ev.pending then ev.timeoutList else none
  | .ready _ _ => if ev.se.inEngine ∧ ev.pending then ev.timeoutList else none
  | .handle _ => none

/-- **An operation:** whether it completes the event, and the event. -/
def EngineOp.run (op : EngineOp) (t : EngineThread) (ev : TimedEvent) : Bool × TimedEvent :=
  match op with
  | .submit _ type cbArg err timeout =>
    match seLinkCe ev.se type cbArg with
    -- EBUSY
    | none => (false, ev)
    | some se =>
      if err ≠ 0 then (false, { ev with se := seUnlinkCe { se with inEngine := false } })
      else
        (false, { ev with
          se := { se with inEngine := true }
          submissions := ev.submissions + 1
          pending := ev.pending || timeout.isSome
          timeoutList := ev.timeoutList.or timeout
          token := .engine })
  | .kill _ => ev.leave t (sockEventKill ev.se)
  | .expire _ _ => ev.leave t { ev.se with error := Errno.etimedout }.complete
  | .ready _ events => if ev.se.inEngine then ev.leave t (socketEventHandle ev.se events) else (false, ev)
  | .handle _ => (false, { ev with se := seUnlinkCe ev.se, token := .none })

/-! ### Threads and locks -/

/-- Where a thread is with an operation. -/
inductive LockTask where
  /-- about to take the `slock` -/
  | wants (op : EngineOp)
  /-- has the `slock`, about to take the lock of a list -/
  | wantsList (op : EngineOp) (list : ℕ)
  | hasList (op : EngineOp) (list : ℕ)
  /-- about to release the `slock`; `begins`: it has completed the event -/
  | releasing (op : EngineOp) (begins : Bool)
  /-- about to call `AThreadBegin` -/
  | begins (e : EventRef)
  deriving DecidableEq, Repr

/-- Where the poll thread is when it has no operation under way, and what it has yet to do. -/
inductive PollState where
  /-- about to call `epoll_wait` -/
  | top
  /-- has an array of events -/
  | entries (es : List (EventRef × PollEvents))
  /-- about to take the lock of the list that expires -/
  | wantsTick (list : ℕ)
  /-- the first loop, with the lock of the list: the events that have been taken off with their submissions, and those
  that have not; `has`: it has the `slock` of the next one -/
  | detaching (list : ℕ) (done : List (EventRef × ℕ)) (todo : List EventRef) (has : Bool)
  /-- the second loop -/
  | expiring (es : List (EventRef × ℕ))
  deriving DecidableEq, Repr

structure PollEngine where
  /-- the other threads are `worker 0`, `worker 1`, ... below this number -/
  workers : ℕ
  event : EventRef → TimedEvent := fun _ => {}
  list : ℕ → List EventRef := fun _ => []
  slock : ℕ → Option EngineThread := fun _ => none
  listLock : ℕ → Option EngineThread := fun _ => none
  task : EngineThread → Option LockTask := fun _ => none
  poll : PollState := .top
  freed : ℕ → Bool := fun _ => false
  /-- the submissions that have been on a list that expired -/
  expired : List (EventRef × ℕ) := []
  /-- the submissions that have been completed, with the error -/
  completed : List (EventRef × ℕ × Errno) := []
  /-- the submissions whose callback is called, with the error -/
  captured : List (EventRef × ℕ × Errno) := []
  /-- the poll thread has used an event after its `SOCK` was freed -/
  usedFreed : Bool := false

namespace PollEngine

variable (s : PollEngine)

def setTask (t : EngineThread) (task : Option LockTask) : PollEngine :=
  { s with task := fun t' => if t' = t then task else s.task t' }

def setSlock (cs : ℕ) (t : Option EngineThread) : PollEngine :=
  { s with slock := fun cs' => if cs' = cs then t else s.slock cs' }

def setListLock (l : ℕ) (t : Option EngineThread) : PollEngine :=
  { s with listLock := fun l' => if l' = l then t else s.listLock l' }

/-- An event changes, and goes off its list or on a new one. -/
def setEvent (e : EventRef) (ev : TimedEvent) : PollEngine :=
  { s with
    event := fun e' => if e' = e then ev else s.event e'
    list := fun l =>
      if (s.event e).timeoutList = some l ∧ ev.timeoutList ≠ some l then (s.list l).erase e
      else if ev.timeoutList = some l ∧ (s.event e).timeoutList ≠ some l then e :: s.list l
      else s.list l }

/-- A thread uses an event. -/
def use (t : EngineThread) (e : EventRef) : PollEngine :=
  { s with usedFreed := s.usedFreed || (decide (t = .poll) && s.freed e.cs) }

/-- A thread does its operation, and has the `slock` still. -/
def perform (t : EngineThread) (op : EngineOp) : PollEngine :=
  let ev := s.event op.event
  let r := op.run t ev
  { (s.setEvent op.event r.2).setTask t (some (.releasing op r.1)) with
    completed := if r.1 then (op.event, ev.submissions, r.2.se.error) :: s.completed else s.completed
    captured := match op, ev.se.arg with
      | .handle e, some _ => (e, ev.submissions, ev.se.error) :: s.captured
      | _, _ => s.captured }

/-- The thread `t` goes on with its operation. -/
def advance (t : EngineThread) : LockTask → Option PollEngine
  | .wants op =>
    if s.slock op.event.cs = none then
      match op.needs (s.event op.event) with
      | some l => some (((s.use t op.event).setSlock op.event.cs (some t)).setTask t (some (.wantsList op l)))
      | none => some (((s.use t op.event).setSlock op.event.cs (some t)).perform t op)
    else none
  | .wantsList op l =>
    if s.listLock l = none then some ((s.setListLock l (some t)).setTask t (some (.hasList op l))) else none
  | .hasList op l => some ((s.perform t op).setListLock l none)
  | .releasing op begins =>
    some ((s.setSlock op.event.cs none).setTask t (if begins then some (.begins op.event) else none))
  | .begins e =>
    some (((s.use t e).setEvent e { s.event e with token := .begun }).setTask t none)

/-- An event is taken off the list that expires. -/
def detach (e : EventRef) : PollEngine :=
  { s with
    event := fun e' => if e' = e then { s.event e with pending := false, timeoutList := none } else s.event e'
    expired := (e, (s.event e).submissions) :: s.expired }

/-- The poll thread goes on when it has no operation under way. -/
def pollNext : Option PollEngine :=
  match s.poll with
  | .top => none
  | .entries [] => some { s with poll := .top }
  | .entries ((e, events) :: es) =>
    some (({ s with poll := .entries es }.use .poll e).setTask .poll (some (.wants (.ready e events))))
  | .wantsTick l =>
    if s.listLock l = none then
      some { s.setListLock l (some .poll) with
        list := fun l' => if l' = l then [] else s.list l'
        poll := .detaching l [] (s.list l) false }
    else none
  | .detaching l done [] _ => some { s.setListLock l none with poll := .expiring done }
  | .detaching l done (e :: todo) false =>
    if s.slock e.cs = none then
      some { (s.use .poll e).setSlock e.cs (some .poll) with poll := .detaching l done (e :: todo) true }
    else none
  | .detaching l done (e :: todo) true =>
    some { (s.detach e).setSlock e.cs none with
      poll := .detaching l (done ++ [(e, (s.event e).submissions)]) todo false }
  | .expiring [] => some { s with poll := .top }
  | .expiring ((e, m) :: es) =>
    some (({ s with poll := .expiring es }.use .poll e).setTask .poll (some (.wants (.expire e m))))

end PollEngine

inductive EngineMove where
  /-- a worker begins an operation -/
  | start (i : ℕ) (op : EngineOp)
  /-- a thread goes on with its operation -/
  | advance (t : EngineThread)
  /-- `epoll_wait` fills the array -/
  | fetch (es : List (EventRef × PollEvents))
  /-- the time of a list is over -/
  | tick (list : ℕ)
  /-- the poll thread goes on -/
  | next
  /-- a consumer frees a conn and its `SOCK` -/
  | free (cs : ℕ)
  deriving DecidableEq, Repr

/-- The operations of the threads other than the poll thread; `SocketEventWaitEx` and `SocketEventKill` are called for
a `SOCK` that is there, `HandleSocketEvent` by a thread that has been begun. -/
def PollEngine.mayStart (s : PollEngine) : EngineOp → Bool
  | .submit e _ _ _ _ | .kill e => !s.freed e.cs
  | .handle e => (s.event e).token = .begun
  | .ready _ _ | .expire _ _ => false

/-- The `SOCK` that a thread works with. -/
def LockTask.cs : LockTask → ℕ
  | wants op | wantsList op _ | hasList op _ | releasing op _ => op.event.cs
  | begins e => e.cs

/-- A consumer frees a conn when none of its events is submitted and none of its threads uses it. -/
def PollEngine.mayFree (s : PollEngine) (cs : ℕ) : Prop :=
  s.slock cs = none ∧ (∀ k, (s.event ⟨cs, k⟩).se.arg = none) ∧
    ∀ i < s.workers, ∀ task ∈ s.task (.worker i), task.cs ≠ cs

instance (s : PollEngine) (cs : ℕ) : Decidable (s.mayFree cs) :=
  decidable_of_iff (s.slock cs = none ∧ ((s.event ⟨cs, .connect⟩).se.arg = none ∧
      (s.event ⟨cs, .receive⟩).se.arg = none ∧ (s.event ⟨cs, .send⟩).se.arg = none) ∧
    ∀ i < s.workers, ∀ task ∈ s.task (.worker i), task.cs ≠ cs) (by
      refine and_congr_right fun _ => and_congr_left fun _ => ⟨fun h k => ?_, fun h => ⟨h _, h _, h _⟩⟩
      cases k
      · exact h.1
      · exact h.2.1
      · exact h.2.2)

/-- **One step;** `none` when the move is not enabled. -/
def pollStep (s : PollEngine) : EngineMove → Option PollEngine
  | .start i op =>
    if i < s.workers ∧ s.task (.worker i) = none ∧ s.mayStart op then
      let s' := s.setTask (.worker i) (some (.wants op))
      match op with
      | .handle e => some (s'.setEvent e { s.event e with token := .handling (.worker i) })
      | _ => some s'
    else none
  | .advance t => (s.task t).bind (s.advance t)
  | .fetch es =>
    -- `epoll_wait` reports events that are in the engine
    if s.poll = .top ∧ s.task .poll = none ∧ ∀ x ∈ es, (s.event x.1).se.inEngine = true then
      some { s with poll := .entries es }
    else none
  | .tick l => if s.poll = .top ∧ s.task .poll = none then some { s with poll := .wantsTick l } else none
  | .next => if s.task .poll = none then s.pollNext else none
  | .free cs => if s.mayFree cs then some { s with freed := fun cs' => cs' = cs || s.freed cs' } else none

def PollEngine.new (workers : ℕ) : PollEngine where
  workers := workers

/-! ### Waiting -/

/-- The `SOCK` whose `slock` a thread is about to take. -/
def PollEngine.wantsSlock (s : PollEngine) (t : EngineThread) : Option ℕ :=
  match s.task t with
  | some (.wants op) => some op.event.cs
  | some _ => none
  | none =>
    match t, s.poll with
    | .poll, .detaching _ _ (e :: _) false => some e.cs
    | _, _ => none

/-- The list whose lock a thread is about to take. -/
def PollEngine.wantsListLock (s : PollEngine) (t : EngineThread) : Option ℕ :=
  match s.task t with
  | some (.wantsList _ l) => some l
  | some _ => none
  | none =>
    match t, s.poll with
    | .poll, .wantsTick l => some l
    | _, _ => none

/-- **A thread waits for a lock that another one has.** -/
def PollEngine.WaitsFor (s : PollEngine) (t t' : EngineThread) : Prop :=
  (∃ cs, s.wantsSlock t = some cs ∧ s.slock cs = some t') ∨ ∃ l, s.wantsListLock t = some l ∧ s.listLock l = some t'

end Connio
