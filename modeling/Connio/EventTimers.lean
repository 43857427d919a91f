import Connio.Event
import Connio.Lib.Transition

/-!
# The timers of socket events

On Windows a socket event that may time out has a waitable timer (`sockwin.c`): `sockEventAdd` allocates it, the timer
thread starts it, `timerCallback` times the event out, and `TimerKill` takes it away from an event that comes out of
the engine.  A step is a hold of `timer->lock` or `timerQ.lock`, or what a thread does between two operations on these
and on `slock`.

* `SeTimer`, `TimedSocketEvent` — a timer and a socket event;
* `SlockPlace`, `TimerPlace`, `TimerSystem` — who has an `slock`, where the timer thread is, and the whole system;
* `TimerAction`, `timerStep` — who moves, and one step;
* `TimerSystem.At` — who is going to free a timer;
* `TimersSound` — a timer is freed once and not used afterwards, and times out the submission it was made for;
* `FreedInTime` — no timer is freed between the two lines of `TimerKill` that read it and lock it, or cancelled when its
  callback has been called.

The engine keeps running.  `SetWaitableTimer` and `CancelWaitableTimer` may succeed or fail at any time.
-/

namespace Connio

open Connio.Lib

/-! ### Timers, events and threads -/

/-- A `seTimer`. -/
structure SeTimer where
  se : Option ℕ := none
  started : Bool := false
  /-- the waitable timer runs -/
  armed : Bool := false
  /-- its callback is due -/
  fired : Bool := false
  /-- how often it has been passed to `seTimerFree` -/
  frees : ℕ := 0
  /-- the event, and the submission, that it was made for -/
  event : ℕ := 0
  sub : ℕ := 0

/-- What a `SocketEvent` has to do with timers. -/
structure TimedSocketEvent where
  /-- `IOCP_EVENT_STATE_WAIT_ACTIVE` -/
  active : Bool := false
  timer : Option ℕ := none
  timedout : Bool := false
  error : Errno := 0
  /-- the submissions so far -/
  sub : ℕ := 0
  /-- a completion is going to come out of the engine -/
  inEngine : Bool := false

/-- Where the thread is that has the `slock` of a socket, and the event it is about; in `sockEventAdd` with the timer,
if there is one. -/
inductive SlockPlace where
  /-- about to call `sockEventAdd` -/
  | entered (e : ℕ)
  /-- about to submit the event -/
  | linked (e : ℕ) (t : Option ℕ)
  /-- the event has been submitted -/
  | submitted (e : ℕ) (t : Option ℕ)
  /-- the timer has been enqueued, about to change the state -/
  | enqueued (e : ℕ)
  /-- the state has been changed, about to enqueue the timer -/
  | activated (e : ℕ) (t : Option ℕ)
  /-- about to leave `sockEventAdd` -/
  | leaving (e : ℕ)
  /-- the event has come out of the engine -/
  | completing (e : ℕ)
  /-- in `TimerKill`, about to lock the timer that has been read -/
  | killing (e t : ℕ)
  /-- in `TimerKill`, about to free the timer -/
  | killed (e : ℕ) (t : Option ℕ)
  deriving DecidableEq, Repr

namespace SlockPlace

def event : SlockPlace → ℕ
  | entered e | linked e _ | submitted e _ | enqueued e | activated e _ | leaving e | completing e | killing e _
  | killed e _ => e

/-- The timer that the thread has to free or to enqueue. -/
def owns : SlockPlace → Option ℕ
  | linked _ t | submitted _ t | activated _ t | killed _ t => t
  | _ => none

/-- In `sockEventAdd`, with the timer. -/
def links : SlockPlace → Option (Option ℕ)
  | linked _ t | submitted _ t | activated _ t => some t
  | _ => none

/-- The event may have a timer although it is not active. -/
def between : SlockPlace → Bool
  | linked _ _ | submitted _ _ | enqueued _ | killing _ _ => true
  | _ => false

end SlockPlace

/-- Where the timer thread is. -/
inductive TimerPlace where
  | sleeping
  /-- about to start the next timer -/
  | starting
  /-- about to free a timer that was not started -/
  | rejected (t : ℕ)
  /-- in `timerCallback`, about to lock the timer -/
  | calling (t : ℕ)
  /-- in `timerCallback`, about to free it -/
  | called (t : ℕ)
  deriving DecidableEq, Repr

/-- The timer that the timer thread has to free. -/
def TimerPlace.timer : TimerPlace → Option ℕ
  | rejected t | calling t | called t => some t
  | _ => none

structure TimerSystem where
  /-- `se->cs` and `se->type` -/
  cs : ℕ → ℕ
  type : ℕ → SocketEventType
  timer : ℕ → SeTimer := fun _ => {}
  event : ℕ → TimedSocketEvent := fun _ => {}
  /-- the timers that have been allocated -/
  allocated : ℕ := 0
  slock : ℕ → Option SlockPlace := fun _ => none
  /-- `timerQ.head`, and what the timer thread has pulled of it -/
  queue : List ℕ := []
  chain : List ℕ := []
  thread : TimerPlace := .sleeping
  /-- the events whose completion is about to set `timedout` to FALSE -/
  clearing : List ℕ := []
  /-- a timer has been used after `seTimerFree` -/
  misused : Bool := false

namespace TimerSystem

variable (s : TimerSystem)

def setTimer (t : ℕ) (v : SeTimer) : TimerSystem := { s with timer := Function.update s.timer t v }

def setEvent (e : ℕ) (v : TimedSocketEvent) : TimerSystem := { s with event := Function.update s.event e v }

/-- The thread with the `slock` of an event goes on, or releases it. -/
def place (e : ℕ) (p : Option SlockPlace) : TimerSystem := { s with slock := Function.update s.slock (s.cs e) p }

/-- A thread uses a timer. -/
def use (t : ℕ) : TimerSystem := { s with misused := s.misused || (s.timer t).frees ≠ 0 }

/-- `SOCK_EVENT_TYPE_READABLE` or `SOCK_EVENT_TYPE_WRITABLE` -/
def reads (e : ℕ) : Bool := s.type e = .readable ∨ s.type e = .writable

/-- `seTimerFree` -/
def seTimerFree (t : ℕ) : TimerSystem :=
  (s.use t).setTimer t { s.timer t with se := none, frees := (s.timer t).frees + 1 }

/-- `seTimerUnlink` -/
def seTimerUnlink (e : ℕ) (t : ℕ) : TimerSystem :=
  (s.setTimer t { s.timer t with se := none }).setEvent e { s.event e with timer := none }

/-- `eventTimeout` -/
def eventTimeout (e : ℕ) : TimerSystem :=
  if (s.event e).active ∧ s.type e ≠ .disconnect then
    s.setEvent e { s.event e with timer := none, timedout := true }
  else s

/-- What `timerCallback` and `timerStart` do with the event of a timer. -/
def expire (t : ℕ) : TimerSystem :=
  match (s.timer t).se with
  | some e => (s.seTimerUnlink e t).eventTimeout e
  | none => s

/-- `seTimerAlloc` and `seTimerLink` -/
def seTimerLink (e : ℕ) : TimerSystem :=
  ({ s with allocated := s.allocated + 1 }.setTimer s.allocated
    { se := some e, event := e, sub := (s.event e).sub + 1 }).setEvent e
    { s.event e with timer := some s.allocated, sub := (s.event e).sub + 1 }

/-- The timer of an event that has not been submitted. -/
def drop (e : ℕ) (t : Option ℕ) : TimerSystem :=
  match t with
  | some t => (s.seTimerUnlink e t).seTimerFree t
  | none => s.setEvent e { s.event e with timer := none }

end TimerSystem

/-- What `seTimerAlloc` answers. -/
inductive TimerAnswer where
  /-- NULL, and no error: the event does not time out -/
  | infinite
  | error
  | timer
  deriving DecidableEq, Repr

inductive TimerAction where
  /-- a thread takes the `slock` of an event -/
  | enter (e : ℕ)
  /-- `sockEventAdd` up to the submission -/
  | alloc (e : ℕ) (answer : TimerAnswer)
  /-- the submission; `ok`: the event is pending -/
  | submit (e : ℕ) (ok : Bool)
  /-- `timerEnqueue` -/
  | enqueue (e : ℕ)
  /-- the state of the event is changed -/
  | activate (e : ℕ)
  | leave (e : ℕ)
  /-- the event comes out of the engine -/
  | complete (e : ℕ)
  /-- `_IOCPThread` up to the lock in `TimerKill` -/
  | read (e : ℕ)
  /-- the lock in `TimerKill`; `ok`: `CancelWaitableTimer` succeeds, and a callback that is due is not called -/
  | kill (e : ℕ) (ok : Bool)
  | free (e : ℕ)
  /-- the rest of `_IOCPThread` up to the release of `slock` -/
  | finish (e : ℕ)
  /-- `se->timedout = FALSE` -/
  | clear (e : ℕ)
  /-- the timer thread pulls the queue -/
  | pull
  /-- the lock in `timerStart`; `ok`: `SetWaitableTimer` succeeds -/
  | start (ok : Bool)
  | discard
  | rest
  /-- the time of a timer is over -/
  | fire (t : ℕ)
  /-- its callback is called -/
  | call (t : ℕ)
  /-- the lock in `timerCallback` -/
  | expire
  | release
  deriving DecidableEq, Repr

/-- **One step;** `none` when it is not enabled. -/
def timerStep (s : TimerSystem) : TimerAction → Option TimerSystem
  | .enter e => if s.slock (s.cs e) = none then some (s.place e (some (.entered e))) else none
  | .alloc e answer =>
    if s.slock (s.cs e) = some (.entered e) then
      let s := s.setEvent e { s.event e with timedout := false, error := 0 }
      if (s.event e).active then
        if s.reads e ∧ answer = .timer then
          some (({ s with allocated := s.allocated + 1 }.setTimer s.allocated { frees := 1 }).place e (some (.leaving e)))
        else some (s.place e (some (.leaving e)))
      else
        match answer with
        | .infinite =>
          some ((s.setEvent e { s.event e with sub := (s.event e).sub + 1 }).place e (some (.linked e none)))
        | .error => some (s.place e (some (.leaving e)))
        | .timer => some ((s.seTimerLink e).place e (some (.linked e (some s.allocated))))
    else none
  | .submit e ok =>
    match s.slock (s.cs e) with
    | some (.linked e' t) =>
      if e' = e then
        if ok then some ((s.setEvent e { s.event e with inEngine := true }).place e (some (.submitted e t)))
        else some ((s.drop e t).place e (some (.leaving e)))
      else none
    | _ => none
  | .enqueue e =>
    match s.slock (s.cs e) with
    | some (.submitted e' t) =>
      if e' = e ∧ s.reads e then
        some ({ s with queue := t.toList ++ s.queue }.place e (some (.enqueued e)))
      else none
    | some (.activated e' t) =>
      if e' = e then some ({ s with queue := t.toList ++ s.queue }.place e (some (.leaving e))) else none
    | _ => none
  | .activate e =>
    match s.slock (s.cs e) with
    | some (.submitted e' t) =>
      if e' = e ∧ ¬ s.reads e then
        some ((s.setEvent e { s.event e with active := true }).place e (some (.activated e t)))
      else none
    | some (.enqueued e') =>
      if e' = e then some ((s.setEvent e { s.event e with active := true }).place e (some (.leaving e))) else none
    | _ => none
  | .leave e => if s.slock (s.cs e) = some (.leaving e) then some (s.place e none) else none
  | .complete e =>
    if s.slock (s.cs e) = none ∧ (s.event e).inEngine then
      some ((s.setEvent e { s.event e with inEngine := false }).place e (some (.completing e)))
    else none
  | .read e =>
    if s.slock (s.cs e) = some (.completing e) then
      if (s.event e).active then
        let p := match (s.event e).timer with
          | some t => SlockPlace.killing e t
          | none => .killed e none
        some ((s.setEvent e { s.event e with active := !s.reads e }).place e (some p))
      else some { s.place e none with clearing := e :: s.clearing }
    else none
  | .kill e ok =>
    match s.slock (s.cs e) with
    | some (.killing e' t) =>
      if e' = e then
        let s' := (s.use t).seTimerUnlink e t
        if (s.timer t).started ∧ ok then
          some ((s'.setTimer t { s'.timer t with armed := false, fired := false }).place e (some (.killed e (some t))))
        else some (s'.place e (some (.killed e none)))
      else none
    | _ => none
  | .free e =>
    match s.slock (s.cs e) with
    | some (.killed e' (some t)) =>
      if e' = e then some ((s.seTimerFree t).place e (some (.killed e none))) else none
    | _ => none
  | .finish e =>
    if s.slock (s.cs e) = some (.killed e none) then
      some { (s.setEvent e { s.event e with
          active := false
          error := if (s.event e).timedout then Errno.etimedout else (s.event e).error }).place e none with
        clearing := e :: s.clearing }
    else none
  | .clear e =>
    if e ∈ s.clearing then
      some { s.setEvent e { s.event e with timedout := false } with clearing := s.clearing.erase e }
    else none
  | .pull =>
    if s.thread = .sleeping then some { s with chain := s.queue, queue := [], thread := .starting } else none
  | .start ok =>
    match s.thread, s.chain with
    | .starting, t :: chain =>
      let s' := { s.use t with chain := chain }
      if (s.timer t).se = none then some { s' with thread := .rejected t }
      else if ok then some (s'.setTimer t { s.timer t with started := true, armed := true })
      else some { s'.expire t with thread := .rejected t }
    | _, _ => none
  | .discard =>
    match s.thread with
    | .rejected t => some { s.seTimerFree t with thread := .starting }
    | _ => none
  | .rest => if s.thread = .starting ∧ s.chain = [] then some { s with thread := .sleeping } else none
  | .fire t =>
    if (s.timer t).armed then some (s.setTimer t { s.timer t with armed := false, fired := true }) else none
  | .call t =>
    if s.thread = .sleeping ∧ (s.timer t).fired then
      some { s.setTimer t { s.timer t with fired := false } with thread := .calling t }
    else none
  | .expire =>
    match s.thread with
    | .calling t => some { (s.use t).expire t with thread := .called t }
    | _ => none
  | .release =>
    match s.thread with
    | .called t => some { s.seTimerFree t with thread := .sleeping }
    | _ => none

/-! ### What the timers are to keep -/

/-- Who is going to free a timer, or that it has been freed. -/
inductive TimerRole where
  | unborn
  /-- the thread that has the `slock` of a socket -/
  | holder (k : ℕ)
  /-- the timer thread, when it has pulled the queue -/
  | queued
  | pulled
  /-- the callback -/
  | running
  /-- the timer thread -/
  | thread
  | freed
  deriving DecidableEq, Repr

/-- The timer that the thread with an `slock` has to free or to enqueue. -/
def TimerSystem.owner (s : TimerSystem) (k : ℕ) : Option ℕ := (s.slock k).bind SlockPlace.owns

/-- **Who is going to free a timer.** -/
def TimerSystem.At (s : TimerSystem) (t : ℕ) : TimerRole → Prop
  | .unborn => s.allocated ≤ t
  | .holder k => s.owner k = some t
  | .queued => t ∈ s.queue
  | .pulled => t ∈ s.chain
  | .running => (s.timer t).armed = true ∨ (s.timer t).fired = true
  | .thread => s.thread.timer = some t
  | .freed => (s.timer t).frees = 1

/-- **The timers are sound.** -/
structure TimersSound (s : TimerSystem) : Prop where
  /-- one thread is going to free a timer, or it has been freed -/
  once : ∀ t, ∃! r, s.At t r
  frees : ∀ t, (s.timer t).frees ≤ 1
  used : s.misused = false
  /-- when nobody is going to free a timer, all of them have been freed -/
  quiet : (∀ k, s.slock k = none) → s.queue = [] → s.chain = [] → s.thread = .sleeping →
    (∀ t, (s.timer t).armed = false ∧ (s.timer t).fired = false) → ∀ t < s.allocated, (s.timer t).frees = 1
  /-- a timer is linked to the submission that it was made for -/
  linked : ∀ t e, (s.timer t).se = some e → (s.timer t).event = e ∧ (s.timer t).sub = (s.event e).sub
  /-- an event is marked by a timer that is linked to it, while it is active -/
  marks : ∀ a s' e, timerStep s a = some s' → (s.event e).timedout = false → (s'.event e).timedout = true →
    (s.event e).active = true ∧ ∃ t, (s.timer t).se = some e

/-- `TimerKill` has read the timer, and is about to lock it. -/
def TimerSystem.Reading (s : TimerSystem) (t : ℕ) : Prop :=
  s.slock (s.cs (s.timer t).event) = some (.killing (s.timer t).event t)

instance (s : TimerSystem) (t : ℕ) : Decidable (s.Reading t) := inferInstanceAs (Decidable (_ = _))

/-- `CancelWaitableTimer` is in time: the callback of the timer has not been called. -/
def TimerSystem.Cancellable (s : TimerSystem) (t : ℕ) : Prop :=
  (s.timer t).started = true → (s.timer t).armed = true ∨ (s.timer t).fired = true

instance (s : TimerSystem) (t : ℕ) : Decidable (s.Cancellable t) := inferInstanceAs (Decidable (_ → _))

/-- **A timer is not freed while `TimerKill` has read it,** and has not locked it; and `CancelWaitableTimer` does not
succeed when the callback has been called. -/
def FreedInTime (s : TimerSystem) : TimerAction → Prop
  | .discard => ∀ t, s.thread = .rejected t → ¬ s.Reading t
  | .release => ∀ t, s.thread = .called t → ¬ s.Reading t
  | .kill e ok => ok = true → ∀ t, s.slock (s.cs e) = some (.killing e t) → s.Cancellable t
  | _ => True

instance (s : TimerSystem) (a : TimerAction) : Decidable (FreedInTime s a) := by
  unfold FreedInTime
  split
  next =>
    cases h : s.thread with
    | rejected t => exact decidable_of_iff (¬ s.Reading t) (by simp)
    | _ => exact isTrue (by simp)
  next =>
    cases h : s.thread with
    | called t => exact decidable_of_iff (¬ s.Reading t) (by simp)
    | _ => exact isTrue (by simp)
  next e ok =>
    cases h : s.slock (s.cs e) with
    | none => exact isTrue (by simp)
    | some p =>
      cases p with
      | killing e' t => exact decidable_of_iff (ok = true → e' = e → s.Cancellable t) (by grind)
      | _ => exact isTrue (by simp)
  next => exact isTrue trivial

end Connio
