import Connio.Event
import Connio.Lib.Order

/-!
# Reading the history of a conn

Projections of `Conn.log`, all newest first like the log itself.

* `allocated`, `accepted`, `appended`, `discarded`, `started`, `left` — the events of the entries of one
  kind;
* `clientFreed`, `iobFreed`, `freed` — whose client buffer, send IOBuffer and memory have been released;
* `AppendedBefore log x y` — `x` was linked into the queue before `y`;
* `lastMark` — the newest of submit, completion and end of transaction;
* `txnLog` — the entries of the transaction that is running (or was the last to run);
* `problems` — everything that counts as a problem of a transaction.
-/

namespace Connio

open Connio.Lib

namespace LogEntry

def alloc? : LogEntry → Option EventId
  | .alloc e => some e
  | _ => none

def accept? : LogEntry → Option EventId
  | .accept e => some e
  | _ => none

def append? : LogEntry → Option EventId
  | .append e => some e
  | _ => none

def discard? : LogEntry → Option EventId
  | .discard e => some e
  | _ => none

def start? : LogEntry → Option EventId
  | .start e => some e
  | _ => none

def leave? : LogEntry → Option EventId
  | .leave e _ _ _ => some e
  | _ => none

def freeCB? : LogEntry → Option EventId
  | .freeCB e => some e
  | _ => none

def iobFree? : LogEntry → Option EventId
  | .iobFree e => some e
  | _ => none

def memFree? : LogEntry → Option EventId
  | .memFree e => some e
  | _ => none

/-- The three entries that move a transaction through its life. -/
inductive Mark where
  | submit
  | done
  | prepare
  deriving DecidableEq, Repr

def mark? : LogEntry → Option Mark
  | .submit => some .submit
  | .done => some .done
  | .prepare _ => some .prepare
  | _ => none

def isPrepare : LogEntry → Bool
  | .prepare _ => true
  | _ => false

/-- A problem of the transaction: one that is reported, or the bad end of an event. -/
def problem? : LogEntry → Option AsyncProblem
  | .report p => some p
  | .leave _ status error source =>
    if status = .failed ∨ status = .timedOut ∨ status = .killed ∨ status = .partialResult then
      some ⟨status, error, source⟩
    else none
  | _ => none

/-- Entries that say nothing about the queue, the slots or the transaction. -/
def isQuiet : LogEntry → Bool
  | .refuse _ | .callback _ _ _ | .io _ _ | .deliver _ _ | .wait _ | .freeCB _ | .iobFree _
  | .memFree _ => true
  | _ => false

end LogEntry

def allocated (log : List LogEntry) : List EventId := log.filterMap LogEntry.alloc?
def accepted (log : List LogEntry) : List EventId := log.filterMap LogEntry.accept?
def appended (log : List LogEntry) : List EventId := log.filterMap LogEntry.append?
def discarded (log : List LogEntry) : List EventId := log.filterMap LogEntry.discard?
def started (log : List LogEntry) : List EventId := log.filterMap LogEntry.start?
def left (log : List LogEntry) : List EventId := log.filterMap LogEntry.leave?
def clientFreed (log : List LogEntry) : List EventId := log.filterMap LogEntry.freeCB?
def iobFreed (log : List LogEntry) : List EventId := log.filterMap LogEntry.iobFree?
def freed (log : List LogEntry) : List EventId := log.filterMap LogEntry.memFree?

/-- `x` was linked into the queue before `y`. -/
def AppendedBefore (log : List LogEntry) (x y : EventId) : Prop := [y, x].Sublist (appended log)

/-- The newest of submit, completion and end of transaction. -/
def lastMark (log : List LogEntry) : Option LogEntry.Mark := (log.filterMap LogEntry.mark?).head?

/-- The entries since the last `PrepareForCallback`. -/
def txnLog (log : List LogEntry) : List LogEntry := log.takeWhile fun x => !x.isPrepare

/-- The entries up to the last `PrepareForCallback`. -/
def oldLog (log : List LogEntry) : List LogEntry := log.dropWhile fun x => !x.isPrepare

/-- The problems of a history, newest first. -/
def problems (log : List LogEntry) : List AsyncProblem := log.filterMap LogEntry.problem?

/-- What `CancelQueuedEvents` writes when it drops the events of `l`. -/
def discards (l : List EventId) : List LogEntry := (l.map LogEntry.discard).reverse

theorem mem_discards {l : List EventId} {x : LogEntry} (hx : x ∈ discards l) :
    ∃ e ∈ l, x = .discard e := by
  obtain ⟨e, he, rfl⟩ := List.mem_map.mp (List.mem_reverse.mp hx)
  exact ⟨e, he, rfl⟩

end Connio
