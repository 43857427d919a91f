import Connio.Lib.Transition
import Mathlib.Data.List.Nodup

/-!
# The records of managed listeners

A handle keeps a list of `ConnListenerPriv`, each with the conn of its listener while it has one (`connio.c`):
`ConnAStartListenerEx`, `ConnAStopListenerEx`, `ConnARemoveListenerEx`, `ConnAListenerStatusEx` and
`ConnAListenerCallback`, by any number of threads.  A step is one hold of `handle->mutex`, or what a thread does
between two holds; a record that is not in the list has been freed.

* `ConnListenerPriv`, `ListenerConn`, `RecordThread`, `ManagedListeners` — a handle with its threads;
* `RecordAction`, `recordStep` — who moves, and one step;
* `RecordsConsistent` — a conn that a record has is there, and knows the record;
* `RecordsOrderly`, `RecordsQuiet` — nobody gets between a thread and its record; no thread is between two writes.
-/

namespace Connio

open Connio.Lib

/-! ### The records and their threads -/

def connListenerFresh : ℕ := 0x01
def connListenerActive : ℕ := 0x02
def connListenerFailed : ℕ := 0x04
def connListenerStopped : ℕ := 0x08
def connListenerIndependent : ℕ := 0x40

structure ConnListenerPriv where
  /-- `pub.conn` -/
  conn : Option ℕ := none
  /-- `CONN_LISTENER_FRESH` and so on -/
  state : ℕ := connListenerFresh
  deriving DecidableEq, Repr

namespace ConnListenerPriv

def has (r : ConnListenerPriv) (flags : ℕ) : Bool := r.state &&& flags ≠ 0

/-- A new state; `CONN_LISTENER_INDEPENDENT` is kept. -/
def setState (r : ConnListenerPriv) (state : ℕ) : ConnListenerPriv :=
  { r with state := state ||| (r.state &&& connListenerIndependent) }

end ConnListenerPriv

/-- The conn of a listener. -/
structure ListenerConn where
  /-- `client.data` -/
  data : Option ℕ := none
  /-- the listener is in the engine, or its callback is about to be called -/
  live : Bool := false
  freed : Bool := false
  deriving DecidableEq, Repr

/-- Where a thread is that does not have the mutex; `only` and `which` are the arguments of
`ConnAStartListenerEx`. -/
inductive RecordThread where
  /-- about to take the mutex -/
  | starting (only : Option ℕ) (which : ℕ)
  /-- about to call `ConnAListenEx` -/
  | listening (only : Option ℕ) (which l : ℕ)
  /-- about to store what `ConnAListenEx` has returned -/
  | submitted (only : Option ℕ) (which l : ℕ) (c : Option ℕ)
  /-- about to take the mutex again -/
  | stored (only : Option ℕ) (which l : ℕ)
  /-- in `ConnAListenerCallback`, about to free the conn -/
  | freeing (c : ℕ) (l : Option ℕ)
  /-- about to take the mutex -/
  | clearing (c l : ℕ)
  /-- about to start the listener again -/
  | restarting (l : ℕ)
  deriving DecidableEq, Repr

structure ManagedListeners where
  record : ℕ → ConnListenerPriv
  /-- `handle->listener` -/
  list : List ℕ
  conn : ℕ → ListenerConn := fun _ => {}
  /-- the conns that have been allocated -/
  allocated : ℕ := 0
  threads : List RecordThread := []
  /-- `handle->shuttingDown` or `handle->listener.preventNew` -/
  closing : Bool := false
  /-- a record has been used after `ConnListenerFree` -/
  usedFreed : Bool := false
  /-- a NULL handle has been used -/
  crashed : Bool := false

namespace ManagedListeners

variable (s : ManagedListeners)

/-- A thread uses a record. -/
def use (l : ℕ) : ManagedListeners := { s with usedFreed := s.usedFreed || !decide (l ∈ s.list) }

def setRecord (l : ℕ) (r : ConnListenerPriv) : ManagedListeners :=
  { s with record := fun l' => if l' = l then r else s.record l' }

def setConn (c : ℕ) (v : ListenerConn) : ManagedListeners :=
  { s with conn := fun c' => if c' = c then v else s.conn c' }

/-- A thread goes on. -/
def become (t : RecordThread) (t' : List RecordThread) : ManagedListeners :=
  { s with threads := t' ++ s.threads.erase t }

/-- The next record that `ConnAStartListenerEx` starts. -/
def pick (only : Option ℕ) (which : ℕ) (from_ : List ℕ) : Option ℕ :=
  from_.find? fun l =>
    !(only.isNone && (s.record l).has connListenerIndependent) && (s.record l).conn.isNone && (s.record l).has which

/-- The records that `ConnAStartListenerEx` looks at. -/
def candidates (only : Option ℕ) : List ℕ := only.elim s.list fun l => [l]

/-- `l->next`, and so on -/
def rest (only : Option ℕ) (l : ℕ) : List ℕ := if only.isSome then [] else (s.list.dropWhile (· ≠ l)).tail

/-- The threads that come of a scan. -/
def scan (only : Option ℕ) (which : ℕ) (from_ : List ℕ) : List RecordThread :=
  (s.pick only which from_).toList.map (.listening only which)

/-- The state and the conn's `client.data` after `ConnAListenEx`. -/
def settle (l : ℕ) : ManagedListeners :=
  match (s.record l).conn with
  | some c =>
    (s.setRecord l ((s.record l).setState connListenerActive)).setConn c { s.conn c with data := some l }
  | none => s.setRecord l ((s.record l).setState connListenerFailed)

/-- The filter of the other loops over the list. -/
def selected (which : ℕ) (only : Option ℕ) (l : ℕ) : Bool :=
  !(only.isNone && (s.record l).has connListenerIndependent) && !(which ≠ 0 && !(s.record l).has which) &&
    only.all (· = l)

/-- The records that a loop frees. -/
def unused (which : ℕ) (only : Option ℕ) (l : ℕ) : Bool := s.selected which only l && (s.record l).conn.isNone

/-- `ConnAStopListenerEx` -/
def stop (which : ℕ) (only : Option ℕ) : ManagedListeners :=
  { s with
    record := fun l =>
      if l ∈ s.list ∧ s.selected which only l then (s.record l).setState connListenerStopped else s.record l }

/-- `ConnARemoveListenerEx`; with a `cllist` it reads `l->id` after the record may have been freed. -/
def remove (which : ℕ) (only : Option ℕ) (cllist : Bool) : ManagedListeners :=
  { s with
    record := fun l =>
      if l ∈ s.list ∧ s.selected which only l then { s.record l with state := connListenerStopped } else s.record l
    list := s.list.filter fun l => !s.unused which only l
    usedFreed := s.usedFreed || (cllist && s.list.any (s.unused which only)) }

/-- `ConnAListenerStatusEx` with `shuttingdown`; the loop reads `l->next` of the record it has freed, which is
NULL. -/
def status (which : ℕ) (only : Option ℕ) : ManagedListeners :=
  match s.list.find? (s.unused which only) with
  | some l => { s with list := s.list.erase l, usedFreed := true }
  | none => s

end ManagedListeners

inductive RecordAction where
  /-- `ConnAStartListenerEx` is called -/
  | start (only : Option ℕ) (which : ℕ)
  /-- it takes the mutex -/
  | lock (only : Option ℕ) (which : ℕ)
  /-- `ConnAListenEx`; `ok`: it does not return NULL -/
  | listen (only : Option ℕ) (which l : ℕ) (ok : Bool)
  /-- `l->pub.conn = ...` -/
  | store (only : Option ℕ) (which l : ℕ) (c : Option ℕ)
  /-- the mutex is taken again -/
  | relock (only : Option ℕ) (which l : ℕ)
  | stop (which : ℕ) (only : Option ℕ)
  | remove (which : ℕ) (only : Option ℕ) (cllist : Bool)
  | status (which : ℕ) (only : Option ℕ) (shuttingdown : Bool)
  /-- `ConnAListenerCallback` reads `client.data` -/
  | callback (c : ℕ)
  /-- it frees the conn -/
  | free (c : ℕ) (l : Option ℕ)
  /-- it takes the mutex -/
  | clear (c l : ℕ)
  /-- it calls `ConnAStartListenerEx` -/
  | restart (l : ℕ)
  /-- the handle is shut down, or new listeners are prevented -/
  | close
  deriving DecidableEq, Repr

/-- **One step** of a process that has not crashed. -/
def recordMove (s : ManagedListeners) : RecordAction → Option ManagedListeners
  | .start only which =>
    -- the caller has a record of the list
    if only.all (· ∈ s.list) then
      if s.closing then some s
      else
        some { s with
          threads := .starting only (if which = 0 then
            connListenerFresh ||| connListenerActive ||| connListenerFailed ||| connListenerStopped else which) ::
            s.threads }
    else none
  | .lock only which =>
    if .starting only which ∈ s.threads then
      some ((only.elim s s.use).become (.starting only which) (s.scan only which (s.candidates only)))
    else none
  | .listen only which l ok =>
    if .listening only which l ∈ s.threads then
      if ok then
        some ((({ s with allocated := s.allocated + 1 }.setConn s.allocated { live := true }).use l).become
          (.listening only which l) [.submitted only which l (some s.allocated)])
      else some ((s.use l).become (.listening only which l) [.submitted only which l none])
    else none
  | .store only which l c =>
    if .submitted only which l c ∈ s.threads then
      some (((s.setRecord l { s.record l with conn := c }).use l).become (.submitted only which l c)
        [.stored only which l])
    else none
  | .relock only which l =>
    if .stored only which l ∈ s.threads then
      some (((s.settle l).use l).become (.stored only which l)
        ((s.settle l).scan only which (s.rest only l)))
    else none
  | .stop which only => some (s.stop which only)
  | .remove which only cllist => some (s.remove which only cllist)
  | .status which only shuttingdown => some (if shuttingdown then s.status which only else s)
  | .callback c =>
    if (s.conn c).live then
      some { s.setConn c { s.conn c with data := none, live := false } with
        threads := .freeing c (s.conn c).data :: s.threads }
    else none
  | .free c l =>
    if .freeing c l ∈ s.threads then
      some ((s.setConn c { s.conn c with freed := true }).become (.freeing c l) (l.toList.map (.clearing c)))
    else none
  | .clear c l =>
    if .clearing c l ∈ s.threads then
      some (((s.setRecord l { s.record l with conn := none }).use l).become (.clearing c l)
        (if s.closing = false ∧ (s.record l).has connListenerStopped = false then [.restarting l] else []))
    else none
  | .restart l =>
    if .restarting l ∈ s.threads then
      -- `newListenersAllowed( NULL )`
      some { (s.use l).become (.restarting l) [] with crashed := true }
    else none
  | .close => some { s with closing := true }

/-- **One step;** `none` when the action is not enabled. -/
def recordStep (s : ManagedListeners) (a : RecordAction) : Option ManagedListeners :=
  if s.crashed then none else recordMove s a

/-- A handle with the listeners that have been added to it, given by their states. -/
def ManagedListeners.new (states : List ℕ) : ManagedListeners where
  record := fun l => { state := states.getD l connListenerFresh }
  list := List.range states.length

/-! ### What the records promise -/

/-- **A conn that a record has is there, and its `client.data` is the record.** -/
def RecordsConsistent (s : ManagedListeners) : Prop :=
  ∀ l ∈ s.list, ∀ c, (s.record l).conn = some c → (s.conn c).freed = false ∧ (s.conn c).data = some l

namespace RecordThread

/-- The record that a thread is going to use. -/
def refers : RecordThread → Option ℕ
  | starting only _ => only
  | listening _ _ l | submitted _ _ l _ | stored _ _ l | clearing _ l | restarting l => some l
  | freeing _ l => l

/-- The record that a thread works on. -/
def works : RecordThread → Option ℕ
  | starting _ _ => none
  | t => t.refers

/-- A thread works on a record that has no conn. -/
def starts (l : ℕ) : RecordThread → Bool
  | listening _ _ l' | submitted _ _ l' _ | restarting l' => l' = l
  | starting _ _ | stored _ _ _ | freeing _ _ | clearing _ _ => false

/-- The record into which a thread has stored what `ConnAListenEx` has returned. -/
def storing : RecordThread → Option ℕ
  | stored _ _ l => some l
  | _ => none

/-- The conn that a thread has and that no record has yet. -/
def fresh : RecordThread → Option ℕ
  | submitted _ _ _ c => c
  | _ => none

end RecordThread

/-- Nobody works on the record that is picked. -/
def ManagedListeners.PickedAlone (s : ManagedListeners) (picked : Option ℕ) : Prop :=
  ∀ l ∈ picked, ∀ t ∈ s.threads, t.works ≠ some l

/-- A record is freed while no thread refers to it, by a function that does not read it again. -/
def FreesUnused (s : ManagedListeners) : RecordAction → Prop
  | .remove which only cllist =>
    ∀ l ∈ s.list, s.unused which only l = true → cllist = false ∧ ∀ t ∈ s.threads, t.refers ≠ some l
  | .status which only shuttingdown => shuttingdown = true → ∀ l ∈ s.list, s.unused which only l = false
  | _ => True

/-- **Nobody gets between a thread and its record:** a record is started by one thread at a time, a callback comes
after `client.data` has been set, and records are freed in time. -/
def RecordsOrderly (s : ManagedListeners) (a : RecordAction) : Prop :=
  FreesUnused s a ∧
    match a with
    | .lock only which => s.PickedAlone (s.pick only which (s.candidates only))
    | .relock only which l => s.PickedAlone ((s.settle l).pick only which (s.rest only l))
    | .callback c => ∀ t ∈ s.threads, t.fresh ≠ some c ∧ ∀ l ∈ t.storing, (s.record l).conn ≠ some c
    | _ => True

/-- The conn that is stored into a record. -/
def RecordAction.started : RecordAction → Option ℕ
  | .store _ _ _ c => c
  | _ => none

/-- No listener gets started, and records are freed in time. -/
def StartsNone (s : ManagedListeners) (a : RecordAction) : Prop := FreesUnused s a ∧ a.started = none

instance (s : ManagedListeners) (picked : Option ℕ) : Decidable (s.PickedAlone picked) :=
  inferInstanceAs (Decidable (∀ l ∈ picked, ∀ t ∈ s.threads, t.works ≠ some l))

instance (s : ManagedListeners) (a : RecordAction) : Decidable (FreesUnused s a) := by
  cases a <;> unfold FreesUnused <;> infer_instance

instance (s : ManagedListeners) (a : RecordAction) : Decidable (RecordsOrderly s a) := by
  cases a <;> unfold RecordsOrderly <;> infer_instance

instance (s : ManagedListeners) (a : RecordAction) : Decidable (StartsNone s a) :=
  inferInstanceAs (Decidable (_ ∧ _))

/-- **No thread is between two writes** to a record and its conn. -/
def RecordsQuiet (s : ManagedListeners) : Prop :=
  ∀ t ∈ s.threads,
    (∀ only which l, t = .stored only which l → (s.record l).conn = none) ∧ (∀ c l, t ≠ .freeing c (some l)) ∧
      ∀ c l, t ≠ .clearing c l

end Connio
