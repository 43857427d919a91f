import Connio.Lib.ChainTable
import Connio.Lib.Transition
import Connio.Numerals

/-!
# The logs of the threads

Each thread may have a log, which is found by the thread's id in a table of 64 lists (`tlog.c`); what it logs goes to a
buffer and from there to a file of its own.

* `LogBuffer` — what is relied on of the buffer, which is not part of the source;
* `TLog`, `ThreadLogs` — a log, and the table, the logs and the files, with what each thread is doing;
* `tlGet`, `tlReplace`, `tlFlush`, `tlogStep` — the functions of the source, and one step of one of the threads;
* `LogsSound` — no log is lost, freed twice or used after it has been freed, and each file has what its thread has
  logged, but for what its closed logs had in their buffers behind the piece that `TLogClose` writes;
* `TLogsInv`, `tlogStep_inv` — **PROVED**: what every step keeps;
* `reachable_threadLogs` — **PROVED**: the logs are sound in every run, whatever the threads do at the same time.

The time and the name of a file are printed, and the two lines of a log are written whole; what `fwrite` takes comes to
the file.  A run ends where `fwrite` is called without a file.
-/

namespace Connio

open Connio.Lib Connio.Lib.Reader

/-! ### The buffer of a log -/

/-- The callback is given these pieces, and answers how much it has taken of each of them. -/
def answered : List (List UInt8) → List ℕ → Bool
  | [], [] => true
  | piece :: pieces, n :: answers => n ≤ piece.length && answered pieces answers
  | _, _ => false

/-- What the callback has taken. -/
def takenOf (pieces : List (List UInt8)) (answers : List ℕ) : List UInt8 :=
  (List.zipWith (fun piece n => piece.take n) pieces answers).flatten

/-- What `IOBWrite` and `IOBFlush` leave. -/
structure IobAnswer (β : Type) where
  /-- how much of the text has been taken -/
  count : ℕ := 0
  iob : β
  /-- what the callback is given -/
  pieces : List (List UInt8)

/-- **The buffer of a log,** with what is relied on of it: what the callback takes is what has been longest in the
buffer, and nothing else leaves it. -/
structure LogBuffer (β : Type) where
  /-- what is in it -/
  content : β → List UInt8
  /-- `IOBAlloc( 0 )` -/
  alloc : β
  /-- `IOBWrite`, when the callback answers this -/
  write : β → List UInt8 → List ℕ → IobAnswer β
  /-- `IOBFlush` -/
  flush : β → List ℕ → IobAnswer β
  /-- `IOBGetUsed`: the octets that lie in one piece -/
  used : β → List UInt8
  content_alloc : content alloc = []
  content_write : ∀ iob text answers, answered (write iob text answers).pieces answers = true →
    content iob ++ text.take (write iob text answers).count =
      takenOf (write iob text answers).pieces answers ++ content (write iob text answers).iob
  content_flush : ∀ iob answers, answered (flush iob answers).pieces answers = true →
    content iob = takenOf (flush iob answers).pieces answers ++ content (flush iob answers).iob
  used_prefix : ∀ iob, used iob <+: content iob

/-! ### Logs -/

/-- What `TID` gives. -/
abbrev Tid := BitVec 32

structure TLog (β : Type) where
  tid : Tid
  /-- `startTime`, as `strftime` prints it -/
  opened : List UInt8
  /-- there is an `fp` -/
  fp : Bool := false
  iob : β

/-- A log as `TLogOpen` makes it. -/
def TLog.made {β : Type} (lib : LogBuffer β) (tid : Tid) (opened : List UInt8) : TLog β :=
  { tid := tid, opened := opened, iob := lib.alloc }

@[simp] theorem TLog.made_tid {β : Type} (lib : LogBuffer β) (tid : Tid) (opened : List UInt8) :
    (TLog.made lib tid opened).tid = tid := rfl

/-- The line that `_TLFlush` begins a log with. -/
def openedLine (opened : List UInt8) : List UInt8 :=
  [octetsOf "---=== Log Opened ", opened, octetsOf "  ===---\n"].flatten

/-- The line that `TLogClose` ends a log with. -/
def closedLine : List UInt8 := octetsOf "---=== Log Closed ===---\n"

/-- A log that has been closed. -/
structure ClosedLog where
  opened : List UInt8
  /-- what its buffer has been given -/
  written : List UInt8
  /-- what was in its buffer behind what `TLogClose` has written to the file -/
  lost : List UInt8

namespace ClosedLog

variable (e : ClosedLog)

/-- What its file has of what was written. -/
def kept : List UInt8 := e.written.take (e.written.length - e.lost.length)

/-- What its file has of it. -/
def text : List UInt8 := openedLine e.opened ++ e.kept ++ closedLine

end ClosedLog

/-- Where a thread is. -/
inductive TLogPhase where
  | idle
  /-- `TLogClose` before `_TLReplace( NULL )`, which `TLogOpen` begins with -/
  | removing (opens : Bool)
  /-- `TLogClose` with the log that it has taken off -/
  | closing (opens : Bool) (log : ℕ)
  /-- `TLogOpen` before `MemMalloc` -/
  | allocating
  /-- `TLogOpen` before `_TLReplace( log )` -/
  | adding (log : ℕ)
  /-- `TLogWrite` or `TLogFlush` before `_TLGet`; the text is what `vstrprintf` leaves -/
  | getting (text : Option (List UInt8))
  /-- `TLogWrite` before `XplSafeIncrement` -/
  | numbering (log : ℕ) (text : List UInt8)
  /-- `TLogWrite` with what it passes to `IOBWrite` -/
  | writing (log : ℕ) (texts : List (List UInt8))
  /-- `TLogFlush` before `IOBFlush` -/
  | flushing (log : ℕ)

/-- `threadLog` after `TLogStartup`, the logs, and the threads. -/
structure ThreadLogs (β : Type) where
  /-- `hash` -/
  table : ForwardLists (Fin 64) ℕ
  entryID : ℕ := 0
  log : ℕ → TLog β
  /-- the logs below this number have been allocated -/
  allocated : ℕ := 0
  freed : List ℕ := []
  /-- the logs that `TLogOpen` gets from `_TLReplace` and does not keep -/
  lost : List ℕ := []
  phase : Tid → TLogPhase := fun _ => .idle
  /-- `fwrite` has been called with NULL -/
  crashed : Bool := false
  /-- `tl-<consumer>/<tid>.txt` -/
  file : Tid → List UInt8 := fun _ => []
  /-- what the file has had at the start -/
  first : Tid → List UInt8 := fun _ => []
  /-- the logs that a thread has closed -/
  ended : Tid → List ClosedLog := fun _ => []
  /-- what the buffer of a thread's log has been given -/
  written : Tid → List UInt8 := fun _ => []

/-- `tid & TL_HASH_MASK` -/
def tlHash (tid : Tid) : Fin 64 := ⟨tid.toNat % 64, Nat.mod_lt _ (by decide)⟩

/-- What `TLogWrite` puts in front of a text. -/
def tlogPrefix (entryID : ℕ) (split lap : XplTimer) : List UInt8 :=
  [numeralText 16 hexChart 8 entryID, octetsOf " ", split.printed, octetsOf "s ", lap.printed, octetsOf "s "].flatten

/-- A text of `TLogWrite`, with a newline at its end; for an empty one it looks at the octet in front of `buffer`. -/
def tlogLine (before : UInt8) (text : List UInt8) : List UInt8 :=
  if (before :: text).getLast? = some 10 then text else text ++ [10]

/-! ### The functions -/

namespace ThreadLogs

variable {β : Type} (s : ThreadLogs β)

/-- What the closed logs of a thread amount to in its file. -/
def closed (tid : Tid) : List UInt8 := s.first tid ++ (s.ended tid).flatMap ClosedLog.text

/-- A member of a list is the log of this thread. -/
def isOf (tid : Tid) (x : ℕ) : Bool := (s.log x).tid = tid

/-- `_TLGet` -/
def tlGet (tid : Tid) : Option ℕ := s.table.read (s.table.search (s.isOf tid) (s.allocated + 1) (.head (tlHash tid)))

/-- `_TLReplace`, for the thread of the log, or for the one that calls it with NULL. -/
def tlReplace (tid : Tid) (log : Option ℕ) : Option ℕ × ForwardLists (Fin 64) ℕ :=
  s.table.exchange (s.isOf tid) (s.allocated + 1) (.head (tlHash tid)) log

/-- A log changes. -/
def setLog (x : ℕ) (f : TLog β → TLog β) : ThreadLogs β := { s with log := Function.update s.log x (f (s.log x)) }

/-- A thread goes on. -/
def goOn (tid : Tid) (phase : TLogPhase) : ThreadLogs β := { s with phase := Function.update s.phase tid phase }

/-- `fwrite` is called with NULL. -/
def crash : ThreadLogs β := { s with crashed := true }

/-- Something is written to the file of a log. -/
def fwriteLog (x : ℕ) (text : List UInt8) : ThreadLogs β :=
  { s with file := Function.update s.file (s.log x).tid (s.file (s.log x).tid ++ text) }

/-- `_TLFlush`, when `fwrite` takes `n` octets; `none` where it is given NULL, as `fopen` has failed. -/
def tlFlush (x : ℕ) (fopen : Bool) (data : List UInt8) (n : ℕ) : Option (ThreadLogs β) :=
  if (s.log x).fp then some (s.fwriteLog x (data.take n))
  else if fopen then
    let opened := (s.setLog x fun l => { l with fp := true }).fwriteLog x (openedLine (s.log x).opened)
    some (opened.fwriteLog x (data.take n))
  else none

/-- The callback is given one piece after the other. -/
def flushPieces (x : ℕ) (fopen : Bool) : List (List UInt8) → List ℕ → ThreadLogs β → Option (ThreadLogs β)
  | piece :: pieces, n :: answers, s => (s.tlFlush x fopen piece n).bind (flushPieces x fopen pieces answers)
  | _, _, s => some s

end ThreadLogs

inductive TLogCall where
  | open
  | write (text : List UInt8)
  | flush
  | close

/-- What a thread does next; `fopen` and `answers` are what `fopen` and `fwrite` answer if they are called. -/
inductive TLogAction where
  | call (c : TLogCall)
  /-- `_TLReplace( NULL )` -/
  | remove
  /-- the rest of `TLogClose` -/
  | close (fopen : Bool) (n : ℕ)
  /-- what `MemMalloc` and `IOBAlloc` answer, and the time -/
  | allocate (memory iob : Bool) (opened : List UInt8)
  /-- `_TLReplace( log )` -/
  | add
  /-- `_TLGet` -/
  | get
  /-- `XplSafeIncrement`, the times, and the octet in front of `buffer` -/
  | number (split lap : XplTimer) (before : UInt8)
  /-- `IOBWrite` -/
  | write (fopen : Bool) (answers : List ℕ)
  /-- `IOBFlush` -/
  | flush (fopen : Bool) (answers : List ℕ)

/-- Where a call begins. -/
def TLogCall.start : TLogCall → TLogPhase
  | .open => .removing true
  | .write text => .getting (some text)
  | .flush => .getting none
  | .close => .removing false

/-- Where `TLogClose` ends. -/
def afterClose (opens : Bool) : TLogPhase := if opens then .allocating else .idle

namespace ThreadLogs

variable {β : Type} (lib : LogBuffer β) (s : ThreadLogs β) (tid : Tid)

/-- `_TLReplace( NULL )` in `TLogClose`. -/
def remove (opens : Bool) : ThreadLogs β :=
  let (old, table) := s.tlReplace tid none
  { s with table := table }.goOn tid (old.elim (afterClose opens) (.closing opens))

/-- `TLogClose` with a log: the piece that `IOBGetUsed` hands back is flushed, and the log is freed. -/
def close (opens : Bool) (x : ℕ) (fopen : Bool) (n : ℕ) : Option (ThreadLogs β) :=
  let log := s.log x
  let data := lib.used log.iob
  if data.length < n then none
  else
    some ((s.tlFlush x fopen data n).elim s.crash fun s' =>
      { s'.fwriteLog x closedLine with
        freed := x :: s.freed
        ended := Function.update s.ended tid (s.ended tid ++
          [{ opened := log.opened, written := s.written tid, lost := (lib.content log.iob).drop n }])
        phase := Function.update s.phase tid (afterClose opens) })

/-- `TLogOpen` up to `IOBAlloc`. -/
def allocate (memory iob : Bool) (opened : List UInt8) : ThreadLogs β :=
  if memory = false then s.goOn tid .idle
  else
    let x := s.allocated
    let s := { s with allocated := x + 1, log := Function.update s.log x (.made lib tid opened) }
    if iob = false then { s with freed := x :: s.freed }.goOn tid .idle
    else { s with written := Function.update s.written tid [] }.goOn tid (.adding x)

/-- The end of `TLogOpen`. -/
def add (x : ℕ) : ThreadLogs β :=
  let (old, table) := s.tlReplace (s.log x).tid (some x)
  { s with table := table, lost := old.toList ++ s.lost }.goOn tid .idle

/-- `_TLGet` in `TLogWrite` and in `TLogFlush`. -/
def get (text : Option (List UInt8)) : ThreadLogs β :=
  s.goOn tid ((s.tlGet tid).elim .idle fun x => text.elim (.flushing x) (.numbering x))

/-- `XplSafeIncrement` in `TLogWrite`. -/
def number (x : ℕ) (text : List UInt8) (split lap : XplTimer) (before : UInt8) : ThreadLogs β :=
  { s with entryID := s.entryID + 1 }.goOn tid
    (.writing x [tlogPrefix (s.entryID + 1) split lap, tlogLine before text])

/-- `IOBWrite`, or `IOBFlush` with no text, has done this; the thread goes on. -/
def iobCall (x : ℕ) (text : List UInt8) (r : IobAnswer β) (fopen : Bool) (answers : List ℕ) (phase : TLogPhase) :
    Option (ThreadLogs β) :=
  if answered r.pieces answers then
    some ((flushPieces x fopen r.pieces answers s).elim s.crash fun s' =>
      { s'.setLog x fun l => { l with iob := r.iob } with
        written := Function.update s.written tid (s.written tid ++ text.take r.count)
        phase := Function.update s.phase tid phase })
  else none

end ThreadLogs

/-- **One step of a thread.** -/
def tlogStep {β : Type} (lib : LogBuffer β) (s : ThreadLogs β) (a : Tid × TLogAction) : Option (ThreadLogs β) :=
  if s.crashed then none
  else
    match s.phase a.1, a.2 with
    | .idle, .call c => some (s.goOn a.1 c.start)
    | .removing opens, .remove => some (s.remove a.1 opens)
    | .closing opens x, .close fopen n => s.close lib a.1 opens x fopen n
    | .allocating, .allocate memory iob opened => some (s.allocate lib a.1 memory iob opened)
    | .adding x, .add => some (s.add a.1 x)
    | .getting text, .get => some (s.get a.1 text)
    | .numbering x text, .number split lap before => some (s.number a.1 x text split lap before)
    | .writing x (text :: texts), .write fopen answers =>
      s.iobCall a.1 x text (lib.write (s.log x).iob text answers) fopen answers
        (if texts = [] then .idle else .writing x texts)
    | .flushing x, .flush fopen answers => s.iobCall a.1 x [] (lib.flush (s.log x).iob answers) fopen answers .idle
    | _, _ => none

/-- `threadLog` when it has been started: no list has a log.  `TLogStartup` removes files of other names than these. -/
def ThreadLogs.start {β : Type} (log : ℕ → TLog β) (file : Tid → List UInt8) : ThreadLogs β where
  table := { head := fun _ => none, next := fun _ => none }
  log := log
  file := file
  first := file

/-! ### What is to hold -/

namespace ThreadLogs

/-- The log has been allocated and not been freed, and is that of the thread. -/
structure Live {β : Type} (s : ThreadLogs β) (tid : Tid) (x : ℕ) : Prop where
  allocated : x < s.allocated
  freed : x ∉ s.freed
  tid : (s.log x).tid = tid

end ThreadLogs

/-- The log that a thread has taken off the table, or has not put on it yet. -/
def TLogPhase.held : TLogPhase → Option ℕ
  | .closing _ x | .adding x => some x
  | _ => none

/-- The log that a thread works with. -/
def TLogPhase.used : TLogPhase → Option ℕ
  | .closing _ x | .adding x | .numbering x _ | .writing x _ | .flushing x => some x
  | _ => none

/-- What is in the file of a log that is not closed, and has `content` in its buffer: nothing before the first flush. -/
structure TLog.Filed {β : Type} (l : TLog β) (content file closed written : List UInt8) : Prop where
  filed : ∃ flushed, flushed ++ content = written ∧
    file = closed ++ if l.fp then openedLine l.opened ++ flushed else []
  buffered : l.fp = false → content = written

/-- **The logs are sound:** no thread uses a log that is not its own or has been freed, none is freed twice or lost, each
log that has not been freed is found in the table or is held by its thread, and the file of a thread has what its
closed logs amount to, and what has been flushed of the open one. -/
structure LogsSound {β : Type} (lib : LogBuffer β) (s : ThreadLogs β) : Prop where
  used : ∀ tid x, (s.phase tid).used = some x → s.Live tid x
  found : ∀ tid x, s.tlGet tid = some x → s.Live tid x
  freedOnce : s.freed.Nodup
  lost : s.lost = []
  kept : ∀ x < s.allocated, x ∉ s.freed →
    s.tlGet (s.log x).tid = some x ∨ (s.phase (s.log x).tid).held = some x
  /-- what a closed log has lost is the end of what was written -/
  ended : ∀ tid, ∀ e ∈ s.ended tid, e.kept ++ e.lost = e.written
  /-- a thread without a log -/
  file : ∀ tid, s.tlGet tid = none → (s.phase tid).held = none → s.file tid = s.closed tid
  /-- a thread with a log -/
  filed : ∀ tid x, s.tlGet tid = some x ∨ (s.phase tid).held = some x →
    (s.log x).Filed (lib.content (s.log x).iob) (s.file tid) (s.closed tid) (s.written tid)

/-! ### The invariant -/

section Steps

variable {β : Type} {lib : LogBuffer β} {s s' : ThreadLogs β} {own own' : Tid → Option ℕ} {l l' : Fin 64 → List ℕ}
  {tid k : Tid} {x : ℕ}

/-- What a thread is, when its log on the table is `own`. -/
structure ThreadOk (lib : LogBuffer β) (s : ThreadLogs β) (tid : Tid) (own : Option ℕ) : Prop where
  registered : ∀ x, own = some x → s.Live tid x
  held : ∀ x, (s.phase tid).held = some x → s.Live tid x ∧ own = none
  allocating : s.phase tid = .allocating → own = none
  used : ∀ x, (s.phase tid).used = some x → (s.phase tid).held = some x ∨ own = some x
  ended : ∀ e ∈ s.ended tid, e.kept ++ e.lost = e.written
  file : own = none → (s.phase tid).held = none → s.file tid = s.closed tid
  filed : ∀ x, own = some x ∨ (s.phase tid).held = some x →
    (s.log x).Filed (lib.content (s.log x).iob) (s.file tid) (s.closed tid) (s.written tid)

/-- **What every step keeps:** the lists are a map from threads to logs. -/
structure TLogsInv (lib : LogBuffer β) (s : ThreadLogs β) (own : Tid → Option ℕ) (l : Fin 64 → List ℕ) : Prop where
  table : ForwardLists.Represents tlHash (fun x => (s.log x).tid) s.table own l
  thread : ∀ tid, ThreadOk lib s tid (own tid)
  freed_lt : ∀ x ∈ s.freed, x < s.allocated
  freedOnce : s.freed.Nodup
  lost : s.lost = []
  kept : ∀ x < s.allocated, x ∉ s.freed → own (s.log x).tid = some x ∨ (s.phase (s.log x).tid).held = some x

/-- A list has fewer members than have been allocated. -/
theorem TLogsInv.length_lt (h : TLogsInv lib s own l) (i : Fin 64) : (l i).length < s.allocated + 1 := by
  have hsub : l i ⊆ List.range s.allocated := fun x hx =>
    List.mem_range.mpr ((h.thread _).registered x (h.table.map_key hx)).allocated
  have hle := (List.subperm_of_subset (h.table.holds.nodup i) hsub).length_le
  rw [List.length_range] at hle
  omega

/-- **`_TLGet` finds the log of the thread (proved).** -/
theorem TLogsInv.tlGet_eq (h : TLogsInv lib s own l) (tid : Tid) : s.tlGet tid = own tid :=
  h.table.lookup (h.length_lt _)

theorem TLogsInv.sound (h : TLogsInv lib s own l) : LogsSound lib s where
  used tid x hx :=
    ((h.thread tid).used x hx).elim (fun hheld => ((h.thread tid).held x hheld).1) ((h.thread tid).registered x)
  found tid x hx := (h.thread tid).registered x (by rw [← h.tlGet_eq]; exact hx)
  freedOnce := h.freedOnce
  lost := h.lost
  kept x hx hfreed := by
    rw [h.tlGet_eq]
    exact h.kept x hx hfreed
  ended tid := (h.thread tid).ended
  file tid hnone hheld := (h.thread tid).file (by rw [← h.tlGet_eq]; exact hnone) hheld
  filed tid x hx := (h.thread tid).filed x (by rw [← h.tlGet_eq]; exact hx)

/-- A log of a thread that has not been freed is on the table or is held by the thread. -/
theorem TLogsInv.at_home (h : TLogsInv lib s own l) (hlive : s.Live k x) :
    own k = some x ∨ (s.phase k).held = some x := by
  have hkept := h.kept x hlive.allocated hlive.freed
  rw [hlive.tid] at hkept
  exact hkept

theorem TLogsInv.on_table (h : TLogsInv lib s own l) (hheld : (s.phase k).held = none) (hlive : s.Live k x) :
    own k = some x :=
  (h.at_home hlive).resolve_right (by rw [hheld]; nofun)

theorem TLogsInv.in_hand (h : TLogsInv lib s own l) (hown : own k = none) (hlive : s.Live k x) :
    (s.phase k).held = some x :=
  (h.at_home hlive).resolve_left (by rw [hown]; nofun)

/-- What a step leaves of the other threads. -/
structure StepOf (s s' : ThreadLogs β) (k : Tid) : Prop where
  phase : ∀ j, j ≠ k → s'.phase j = s.phase j
  file : ∀ j, j ≠ k → s'.file j = s.file j
  first : s'.first = s.first
  ended : ∀ j, j ≠ k → s'.ended j = s.ended j
  written : ∀ j, j ≠ k → s'.written j = s.written j
  allocated : s.allocated ≤ s'.allocated
  log : ∀ x < s.allocated, (s.log x).tid ≠ k → s'.log x = s.log x
  freed : ∀ x ∈ s'.freed, x ∈ s.freed ∨ (s'.log x).tid = k

theorem StepOf.closed (h : StepOf s s' k) {j : Tid} (hj : j ≠ k) : s'.closed j = s.closed j := by
  rw [ThreadLogs.closed, ThreadLogs.closed, h.first, h.ended j hj]

theorem StepOf.live (h : StepOf s s' k) {j : Tid} (hj : j ≠ k) (hlive : s.Live j x) : s'.Live j x := by
  have hlog : s'.log x = s.log x := h.log x hlive.allocated fun htid => hj (hlive.tid.symm.trans htid)
  have htid : (s'.log x).tid = j := by
    rw [hlog]
    exact hlive.tid
  exact ⟨Nat.lt_of_lt_of_le hlive.allocated h.allocated,
    fun hfreed => (h.freed x hfreed).elim hlive.freed fun hk => hj (htid.symm.trans hk), htid⟩

/-- **The other threads are as they were (proved).** -/
theorem StepOf.other (h : StepOf s s' k) {j : Tid} (hj : j ≠ k) {o : Option ℕ} (hok : ThreadOk lib s j o) :
    ThreadOk lib s' j o := by
  refine ⟨fun x hx => h.live hj (hok.registered x hx), fun x hx => ?_, fun hx => ?_, fun x hx => ?_, fun e he => ?_,
    fun ho hx => ?_, fun x hx => ?_⟩
  · rw [h.phase j hj] at hx
    exact ⟨h.live hj (hok.held x hx).1, (hok.held x hx).2⟩
  · rw [h.phase j hj] at hx
    exact hok.allocating hx
  · rw [h.phase j hj] at hx ⊢
    exact hok.used x hx
  · rw [h.ended j hj] at he
    exact hok.ended e he
  · rw [h.phase j hj] at hx
    rw [h.file j hj, h.closed hj]
    exact hok.file ho hx
  · rw [h.phase j hj] at hx
    have hlive : s.Live j x := hx.elim (hok.registered x) fun hheld => (hok.held x hheld).1
    rw [h.log x hlive.allocated fun htid => hj (hlive.tid.symm.trans htid), h.file j hj, h.closed hj, h.written j hj]
    exact hok.filed x hx

/-- **A step of one thread (proved)** keeps the invariant when the thread is in order behind it. -/
theorem TLogsInv.step_of (h : TLogsInv lib s own l) (hstep : StepOf s s' k)
    (htable : ForwardLists.Represents tlHash (fun x => (s'.log x).tid) s'.table own' l')
    (hown : ∀ j, j ≠ k → own' j = own j) (hk : ThreadOk lib s' k (own' k)) (hfreed : ∀ x ∈ s'.freed, x < s'.allocated)
    (hnodup : s'.freed.Nodup) (hlost : s'.lost = [])
    (hkept : ∀ x < s'.allocated, x ∉ s'.freed → (s'.log x).tid = k → own' k = some x ∨ (s'.phase k).held = some x)
    (hold : ∀ x < s'.allocated, (s'.log x).tid ≠ k → x < s.allocated ∧ (s.log x).tid = (s'.log x).tid)
    (hgone : ∀ x ∈ s.freed, x ∈ s'.freed) : TLogsInv lib s' own' l' := by
  refine ⟨htable, fun j => ?_, hfreed, hnodup, hlost, fun x hx hlive => ?_⟩
  · by_cases hj : j = k
    · rw [hj]
      exact hk
    · rw [hown j hj]
      exact hstep.other hj (h.thread j)
  · by_cases htid : (s'.log x).tid = k
    · rw [htid]
      exact hkept x hx hlive htid
    · obtain ⟨hlt, heq⟩ := hold x hx htid
      rw [hown _ htid, hstep.phase _ htid, ← heq]
      exact h.kept x hlt fun hin => hlive (hgone x hin)

/-- A step that allocates and frees no log. -/
theorem TLogsInv.step_here (h : TLogsInv lib s own l) (hstep : StepOf s s' k)
    (htid : (fun x => (s'.log x).tid) = fun x => (s.log x).tid) (hallocated : s'.allocated = s.allocated)
    (hfreed : s'.freed = s.freed) (hlost : s'.lost = [])
    (htable : ForwardLists.Represents tlHash (fun x => (s.log x).tid) s'.table own' l')
    (hown : ∀ j, j ≠ k → own' j = own j) (hk : ThreadOk lib s' k (own' k))
    (hkept : ∀ x, s.Live k x → own' k = some x ∨ (s'.phase k).held = some x) : TLogsInv lib s' own' l' := by
  have htid' : ∀ x, (s'.log x).tid = (s.log x).tid := fun x => congrFun htid x
  refine h.step_of hstep (by rw [htid]; exact htable) hown hk (fun x hx => ?_) (by rw [hfreed]; exact h.freedOnce) hlost
    (fun x hx hlive hx' => ?_) (fun x hx _ => ?_) fun x hx => by rw [hfreed]; exact hx
  · rw [hallocated]
    exact h.freed_lt x (by rw [← hfreed]; exact hx)
  · rw [hfreed] at hlive
    rw [hallocated] at hx
    exact hkept x ⟨hx, hlive, (htid' x).symm.trans hx'⟩
  · rw [hallocated] at hx
    exact ⟨hx, (htid' x).symm⟩

/-! ### The buffer and the file -/

/-- **`_TLFlush` (proved):** the first line of a log comes first. -/
theorem tlFlush_eq {fopen : Bool} {data : List UInt8} {n : ℕ} (h : s.tlFlush x fopen data n = some s') : s' = { s with
    log := Function.update s.log x { s.log x with fp := true }
    file := Function.update s.file (s.log x).tid (s.file (s.log x).tid ++
      ((if (s.log x).fp then [] else openedLine (s.log x).opened) ++ data.take n)) } := by
  rw [ThreadLogs.tlFlush] at h
  by_cases hfp : (s.log x).fp = true
  · have hsame : ({ s.log x with fp := true } : TLog β) = s.log x := by rw [← hfp]
    rw [if_pos hfp] at h
    rw [if_pos hfp, hsame, Function.update_eq_self, ← Option.some.inj h]
    rfl
  · rw [if_neg hfp] at h
    rw [if_neg hfp]
    split at h
    · rw [← Option.some.inj h]
      simp only [ThreadLogs.setLog, ThreadLogs.fwriteLog, Function.update_self, Function.update_idem, List.append_assoc]
    · cases h

/-- What is filed of a log when some octets of its buffer have been flushed. -/
theorem TLog.Filed.flush {l : TLog β} {data content file closed written : List UInt8}
    (h : l.Filed (data ++ content) file closed written) : ({ l with fp := true } : TLog β).Filed content
      (file ++ ((if l.fp then [] else openedLine l.opened) ++ data)) closed written := by
  obtain ⟨flushed, hwritten, hfile⟩ := h.filed
  refine ⟨⟨flushed ++ data, ?_, ?_⟩, nofun⟩
  · rw [List.append_assoc, hwritten]
  · rw [hfile, if_pos rfl]
    cases hfp : l.fp with
    | true =>
      rw [if_pos rfl, if_pos rfl]
      simp only [List.nil_append, List.append_assoc]
    | false =>
      -- nothing has been flushed before
      have hnil : flushed = [] := by
        have hlength := congrArg List.length hwritten
        rw [← h.buffered hfp, List.length_append] at hlength
        exact List.length_eq_zero_iff.mp (by omega)
      rw [hnil]
      simp only [Bool.false_eq_true, if_false, List.nil_append, List.append_nil]

/-- A text comes to the buffer. -/
theorem TLog.Filed.append {l : TLog β} {content file closed written : List UInt8}
    (h : l.Filed content file closed written) (text : List UInt8) : l.Filed (content ++ text) file closed (written ++ text) := by
  obtain ⟨flushed, hwritten, hfile⟩ := h.filed
  refine ⟨⟨flushed, ?_, hfile⟩, fun hfp => ?_⟩
  · rw [← List.append_assoc, hwritten]
  · rw [h.buffered hfp]

/-- **The pieces (proved):** they come to the file, and no other log changes. -/
theorem flushPieces_spec {fopen : Bool} {pieces : List (List UInt8)} {answers : List ℕ}
    (h : ThreadLogs.flushPieces x fopen pieces answers s = some s') : ∃ fp file, s' = { s with
      log := Function.update s.log x { s.log x with fp := fp }
      file := Function.update s.file (s.log x).tid file } ∧
      ∀ content closed written,
        (s.log x).Filed (takenOf pieces answers ++ content) (s.file (s.log x).tid) closed written →
        ({ s.log x with fp := fp } : TLog β).Filed content file closed written := by
  induction pieces generalizing answers s with
  | nil =>
    refine ⟨(s.log x).fp, s.file (s.log x).tid, ?_, fun _ _ _ hfiled => hfiled⟩
    rw [Function.update_eq_self, Function.update_eq_self]
    exact (Option.some.inj h).symm
  | cons piece pieces ih =>
    cases answers with
    | nil =>
      refine ⟨(s.log x).fp, s.file (s.log x).tid, ?_, fun _ _ _ hfiled => hfiled⟩
      rw [Function.update_eq_self, Function.update_eq_self]
      exact (Option.some.inj h).symm
    | cons n answers =>
      obtain ⟨s₁, hflush, hrest⟩ := Option.bind_eq_some_iff.mp h
      obtain ⟨fp, file, heq, hfiled⟩ := ih hrest
      rw [tlFlush_eq hflush] at heq hfiled
      simp only [Function.update_self, Function.update_idem] at heq hfiled
      refine ⟨fp, file, heq, fun content closed written hold => hfiled content closed written ?_⟩
      have htaken : takenOf (piece :: pieces) (n :: answers) ++ content =
          piece.take n ++ (takenOf pieces answers ++ content) := by
        rw [← List.append_assoc]
        rfl
      rw [htaken] at hold
      exact hold.flush

/-- `fwrite` with NULL leaves what there is. -/
theorem TLogsInv.crash (h : TLogsInv lib s own l) : TLogsInv lib s.crash own l :=
  h.step_here (k := 0) ⟨fun _ _ => rfl, fun _ _ => rfl, rfl, fun _ _ => rfl, fun _ _ => rfl, Nat.le_refl _,
    fun _ _ _ => rfl, fun _ hx => .inl hx⟩ rfl rfl rfl h.lost h.table (fun _ _ => rfl)
    ⟨fun x hx => ⟨((h.thread 0).registered x hx).1, ((h.thread 0).registered x hx).2, ((h.thread 0).registered x hx).3⟩,
      fun x hx => ⟨⟨((h.thread 0).held x hx).1.1, ((h.thread 0).held x hx).1.2, ((h.thread 0).held x hx).1.3⟩,
        ((h.thread 0).held x hx).2⟩, (h.thread 0).allocating, (h.thread 0).used, (h.thread 0).ended, (h.thread 0).file,
      (h.thread 0).filed⟩ fun _ hx => h.at_home hx

/-! ### The steps -/

/-- A thread goes on with what it has. -/
theorem TLogsInv.goOn (h : TLogsInv lib s own l) (hheld : (s.phase k).held = none) {phase : TLogPhase} (entryID : ℕ)
    (hphase : phase.held = none) (hused : ∀ x, phase.used = some x → own k = some x)
    (hallocating : phase = .allocating → own k = none) :
    TLogsInv lib ({ s with entryID := entryID }.goOn k phase) own l := by
  have hok := h.thread k
  have hk : ({ s with entryID := entryID }.goOn k phase).phase k = phase := Function.update_self ..
  have hstep : StepOf s ({ s with entryID := entryID }.goOn k phase) k :=
    ⟨fun j hj => Function.update_of_ne hj .., fun _ _ => rfl, rfl, fun _ _ => rfl, fun _ _ => rfl, Nat.le_refl _,
      fun _ _ _ => rfl, fun _ hx => .inl hx⟩
  refine h.step_here hstep rfl rfl rfl h.lost h.table (fun _ _ => rfl) ?_ fun x hlive => .inl (h.on_table hheld hlive)
  refine ⟨fun x hx => ?_, fun x hx => ?_, fun hx => ?_, fun x hx => ?_, hok.ended,
    fun ho _ => hok.file ho hheld, fun x hx => ?_⟩
  · obtain ⟨h1, h2, h3⟩ := hok.registered x hx
    exact ⟨h1, h2, h3⟩
  · rw [hk, hphase] at hx
    cases hx
  · rw [hk] at hx
    exact hallocating hx
  · rw [hk] at hx
    exact .inr (hused x hx)
  · rw [hk, hphase] at hx
    exact hok.filed x (hx.imp_right fun hne => by cases hne)

/-- A thread that works with a log that it does not hold works with its own. -/
theorem TLogsInv.works (h : TLogsInv lib s own l) (hused : (s.phase k).used = some x) (hheld : (s.phase k).held = none) :
    own k = some x := by
  refine ((h.thread k).used x hused).resolve_left fun hne => ?_
  rw [hheld] at hne
  cases hne

/-- `_TLReplace( NULL )` -/
theorem TLogsInv.remove (h : TLogsInv lib s own l) {opens : Bool} (hphase : s.phase k = .removing opens) :
    ∃ l', TLogsInv lib (s.remove k opens) (Function.update own k none) l' := by
  have hok := h.thread k
  have hheld : (s.phase k).held = none := by rw [hphase]; rfl
  obtain ⟨hold, l', htable⟩ := h.table.exchanged (k := k) (x := none) (h.length_lt _) nofun nofun
  have hremove : s.remove k opens = { s with
      table := (s.tlReplace k none).2
      phase := Function.update s.phase k ((own k).elim (afterClose opens) (.closing opens)) } := by
    rw [ThreadLogs.remove, ← hold]
    rfl
  have hk : (s.remove k opens).phase k = (own k).elim (afterClose opens) (.closing opens) := by
    rw [hremove]
    exact Function.update_self ..
  have hstep : StepOf s (s.remove k opens) k := by
    rw [hremove]
    exact ⟨fun j hj => Function.update_of_ne hj .., fun _ _ => rfl, rfl, fun _ _ => rfl, fun _ _ => rfl, Nat.le_refl _,
      fun _ _ _ => rfl, fun _ hx => .inl hx⟩
  have hafter : (afterClose opens).held = none ∧ (afterClose opens).used = none := by
    cases opens <;> exact ⟨rfl, rfl⟩
  -- the log that has been on the table is held now
  have hnow : ((s.remove k opens).phase k).held = own k ∧ ((s.remove k opens).phase k).used = own k := by
    rw [hk]
    cases hown : own k with
    | none => exact hafter
    | some x => exact ⟨rfl, rfl⟩
  have hlive : ∀ x, own k = some x → (s.remove k opens).Live k x := fun x hx => by
    obtain ⟨h1, h2, h3⟩ := hok.registered x hx
    rw [hremove]
    exact ⟨h1, h2, h3⟩
  refine ⟨l', h.step_here hstep (by rw [hremove]) (by rw [hremove]) (by rw [hremove]) (by rw [hremove]; exact h.lost)
    (by rw [hremove]; exact htable) (fun j hj => Function.update_of_ne hj ..) ?_ fun x hx => .inr ?_⟩
  · rw [Function.update_self]
    refine ⟨nofun, fun x hx => ⟨hlive x (hnow.1 ▸ hx), rfl⟩, fun _ => rfl, fun x hx => .inl ?_, fun e he => ?_,
      fun _ hx => ?_, fun x hx => ?_⟩
    · rw [hnow.2] at hx
      rw [hnow.1]
      exact hx
    · rw [hremove] at he
      exact hok.ended e he
    · rw [hnow.1] at hx
      rw [hremove]
      exact hok.file hx hheld
    · rw [hnow.1] at hx
      have hfiled := hok.filed x (.inl (hx.resolve_left nofun))
      rw [hremove]
      exact hfiled
  · rw [hnow.1]
    exact h.on_table hheld hx

/-- `_TLGet` -/
theorem TLogsInv.get (h : TLogsInv lib s own l) {text : Option (List UInt8)} (hphase : s.phase k = .getting text) :
    TLogsInv lib (s.get k text) own l := by
  have hheld : (s.phase k).held = none := by rw [hphase]; rfl
  rw [ThreadLogs.get, h.tlGet_eq]
  cases hown : own k with
  | none => exact h.goOn hheld s.entryID rfl nofun nofun
  | some x =>
    cases text with
    | none => exact h.goOn hheld s.entryID rfl (fun y hy => hown.trans hy) nofun
    | some text => exact h.goOn hheld s.entryID rfl (fun y hy => hown.trans hy) nofun

/-- **`IOBWrite` and `IOBFlush` (proved),** with the log that is on the table. -/
theorem TLogsInv.iobCall (h : TLogsInv lib s own l) (hheld : (s.phase k).held = none) (hown : own k = some x)
    {text : List UInt8} {r : IobAnswer β} {fopen : Bool} {answers : List ℕ} {phase : TLogPhase}
    (hr : answered r.pieces answers = true →
      lib.content (s.log x).iob ++ text.take r.count = takenOf r.pieces answers ++ lib.content r.iob)
    (hphase : phase.held = none) (hused : ∀ y, phase.used = some y → y = x) (hallocating : phase ≠ .allocating)
    (hcall : s.iobCall k x text r fopen answers phase = some s') : TLogsInv lib s' own l := by
  have hok := h.thread k
  have hlive := hok.registered x hown
  rw [ThreadLogs.iobCall] at hcall
  split at hcall
  case isFalse => cases hcall
  case isTrue hanswered =>
    cases hflush : ThreadLogs.flushPieces x fopen r.pieces answers s with
    | none =>
      rw [hflush] at hcall
      rw [← Option.some.inj hcall]
      exact h.crash
    | some s₁ =>
      obtain ⟨fp, file, heq, hfiled⟩ := flushPieces_spec hflush
      have hx : (s.log x).tid = k := hlive.tid
      have heq : s' = { s with
          log := Function.update s.log x { s.log x with fp := fp, iob := r.iob }
          file := Function.update s.file k file
          written := Function.update s.written k (s.written k ++ text.take r.count)
          phase := Function.update s.phase k phase } := by
        rw [hflush, heq] at hcall
        rw [← Option.some.inj hcall]
        simp only [Option.elim_some, ThreadLogs.setLog, Function.update_self, Function.update_idem, hx]
      have htids : (fun y => (Function.update s.log x { s.log x with fp := fp, iob := r.iob } y).tid) =
          fun y => (s.log y).tid := by
        funext y
        by_cases hy : y = x
        · rw [hy, Function.update_self]
        · rw [Function.update_of_ne hy]
      have hkeeps : ∀ y, s.Live k y → s'.Live k y := fun y hy => by
        rw [heq]
        exact ⟨hy.allocated, hy.freed, (congrFun htids y).trans hy.tid⟩
      have hk : s'.phase k = phase := by
        rw [heq]
        exact Function.update_self ..
      have hstep : StepOf s s' k := by
        rw [heq]
        refine ⟨fun j hj => Function.update_of_ne hj .., fun j hj => Function.update_of_ne hj .., rfl, fun _ _ => rfl,
          fun j hj => Function.update_of_ne hj .., Nat.le_refl _,
          fun y _ hy => Function.update_of_ne (fun hyx => hy ?_) .., fun _ hy => .inl hy⟩
        rw [hyx]
        exact hx
      refine h.step_here hstep (by rw [heq]; exact htids) (by rw [heq]) (by rw [heq]) (by rw [heq]; exact h.lost)
        (by rw [heq]; exact h.table) (fun _ _ => rfl) ?_ fun y hy => .inl (h.on_table hheld hy)
      refine ⟨fun y hy => hkeeps y (hok.registered y hy), fun y hy => ?_, fun hne => ?_, fun y hy => .inr ?_,
        fun e he => ?_, fun hnone _ => ?_, fun y hy => ?_⟩
      · rw [hk, hphase] at hy
        cases hy
      · rw [hk] at hne
        exact absurd hne hallocating
      · rw [hk] at hy
        rw [hused y hy]
        exact hown
      · rw [heq] at he
        exact hok.ended e he
      · rw [hown] at hnone
        cases hnone
      · rw [hk, hphase] at hy
        obtain rfl : x = y := Option.some.inj (hown.symm.trans (hy.resolve_right nofun))
        -- the text goes to the end of the buffer, and what the callback takes is at its start
        have hbefore := (hok.filed x (.inl hown)).append (text.take r.count)
        rw [hr hanswered, ← hx] at hbefore
        have hafter := hfiled (lib.content r.iob) (s.closed k) (s.written k ++ text.take r.count) (by
          rw [hx] at hbefore ⊢
          exact hbefore)
        rw [heq]
        show TLog.Filed (Function.update s.log x { s.log x with fp := fp, iob := r.iob } x)
          (lib.content (Function.update s.log x { s.log x with fp := fp, iob := r.iob } x).iob)
          (Function.update s.file k file k) (s.closed k)
          (Function.update s.written k (s.written k ++ text.take r.count) k)
        rw [Function.update_self, Function.update_self, Function.update_self]
        exact ⟨hafter.filed, hafter.buffered⟩

/-- `_TLReplace( log )`: there is no other log of the thread. -/
theorem TLogsInv.add (h : TLogsInv lib s own l) (hphase : s.phase k = .adding x) :
    ∃ l', TLogsInv lib (s.add k x) (Function.update own k (some x)) l' := by
  have hok := h.thread k
  have hheld : (s.phase k).held = some x := by rw [hphase]; rfl
  obtain ⟨hlive, hown⟩ := hok.held x hheld
  have hoff : ∀ y, some x = some y → ∀ i, y ∉ l i := by
    intro y hy i hin
    obtain rfl := Option.some.inj hy
    have hreg : own (s.log x).tid = some x := h.table.map_key hin
    rw [hlive.tid, hown] at hreg
    cases hreg
  obtain ⟨hold, l', htable⟩ := h.table.exchanged (k := k) (x := some x) (h.length_lt _)
    (fun y hy => by rw [← Option.some.inj hy]; exact hlive.tid) hoff
  have hadd : s.add k x = { s with
      table := (s.tlReplace k (some x)).2
      phase := Function.update s.phase k .idle } := by
    have hnone : (s.tlReplace k (some x)).1 = none := hold.trans hown
    rw [ThreadLogs.add, hlive.tid]
    show ({ s with table := (s.tlReplace k (some x)).2, lost := (s.tlReplace k (some x)).1.toList ++ s.lost } :
      ThreadLogs β).goOn k .idle = _
    rw [hnone]
    rfl
  have hk : (s.add k x).phase k = .idle := by
    rw [hadd]
    exact Function.update_self ..
  have hstep : StepOf s (s.add k x) k := by
    rw [hadd]
    exact ⟨fun j hj => Function.update_of_ne hj .., fun _ _ => rfl, rfl, fun _ _ => rfl, fun _ _ => rfl, Nat.le_refl _,
      fun _ _ _ => rfl, fun _ hx => .inl hx⟩
  refine ⟨l', h.step_here hstep (by rw [hadd]) (by rw [hadd]) (by rw [hadd]) (by rw [hadd]; exact h.lost)
    (by rw [hadd]; exact htable) (fun j hj => Function.update_of_ne hj ..) ?_ fun y hy => .inl ?_⟩
  · rw [Function.update_self]
    refine ⟨fun y hy => ?_, fun y hy => ?_, fun hne => ?_, fun y hy => ?_, fun e he => ?_, nofun, fun y hy => ?_⟩
    · obtain rfl := Option.some.inj hy
      rw [hadd]
      exact ⟨hlive.allocated, hlive.freed, hlive.tid⟩
    · rw [hk] at hy
      cases hy
    · rw [hk] at hne
      cases hne
    · rw [hk] at hy
      cases hy
    · rw [hadd] at he
      exact hok.ended e he
    · rw [hk] at hy
      obtain rfl : x = y := Option.some.inj (hy.resolve_right nofun)
      have hfiled := hok.filed x (.inr hheld)
      rw [hadd]
      exact hfiled
  · rw [Function.update_self, ← hheld]
    exact h.in_hand hown hy

/-- `TLogOpen` with a new log, which is freed at once or is to be put on the table. -/
theorem TLogsInv.allocated (h : TLogsInv lib s own l) (hphase : s.phase k = .allocating) (opened written : List UInt8)
    {freed : List ℕ} {phase : TLogPhase} (hnew : phase = .idle ∧ freed = s.allocated :: s.freed ∨
      phase = .adding s.allocated ∧ freed = s.freed ∧ written = []) :
    TLogsInv lib { s with
      allocated := s.allocated + 1
      log := Function.update s.log s.allocated (TLog.made lib k opened)
      freed := freed
      written := Function.update s.written k written
      phase := Function.update s.phase k phase } own l := by
  have hok := h.thread k
  have hheld : (s.phase k).held = none := by rw [hphase]; rfl
  have hown := hok.allocating hphase
  have hlog : ∀ y, y ≠ s.allocated →
      Function.update s.log s.allocated (TLog.made lib k opened) y = s.log y :=
    fun y hy => Function.update_of_ne hy ..
  have hlog' : Function.update s.log s.allocated (TLog.made lib k opened) s.allocated =
      (TLog.made lib k opened) := Function.update_self ..
  have hout : s.allocated ∉ s.freed := fun hin => absurd (h.freed_lt _ hin) (Nat.lt_irrefl _)
  have hfreed : ∀ y ∈ freed, y ∈ s.freed ∨ y = s.allocated := fun y hy => by
    rcases hnew with ⟨-, heq⟩ | ⟨-, heq, -⟩
    · rw [heq] at hy
      exact (List.mem_cons.mp hy).symm
    · rw [heq] at hy
      exact .inl hy
  have hmember : ∀ i, ∀ y ∈ l i, y ≠ s.allocated := fun i y hy heq => by
    exact absurd ((h.thread _).registered y (h.table.map_key hy)).allocated (by rw [heq]; exact Nat.lt_irrefl _)
  refine h.step_of ⟨fun j hj => Function.update_of_ne hj .., fun _ _ => rfl, rfl, fun _ _ => rfl,
    fun j hj => Function.update_of_ne hj .., Nat.le_succ _, fun y hy _ => hlog y (Nat.ne_of_lt hy), fun y hy => ?_⟩
    (h.table.congr fun i y hy => congrArg TLog.tid (hlog y (hmember i y hy))) (fun _ _ => rfl) ?_ (fun y hy => ?_) ?_
    h.lost (fun y hy hlive htid => .inr ?_) (fun y hy htid => ?_) fun y hy => ?_
  · refine (hfreed y hy).imp_right fun heq => ?_
    show (Function.update s.log s.allocated (TLog.made lib k opened) y).tid = k
    rw [heq, hlog', TLog.made_tid]
  · rw [hown]
    have hk : Function.update s.phase k phase k = phase := Function.update_self ..
    refine ⟨nofun, fun y hy => ?_, fun _ => rfl, fun y hy => .inl ?_, hok.ended,
      fun _ _ => hok.file hown hheld, fun y hy => ?_⟩
    · obtain hy : (Function.update s.phase k phase k).held = some y := hy
      rw [hk] at hy
      rcases hnew with ⟨heq, -⟩ | ⟨heq, hsame, -⟩
      · rw [heq] at hy
        cases hy
      · rw [heq] at hy
        obtain rfl := Option.some.inj hy
        refine ⟨⟨Nat.lt_succ_self _, ?_, congrArg TLog.tid hlog'⟩, rfl⟩
        rw [hsame]
        exact hout
    · obtain hy : (Function.update s.phase k phase k).used = some y := hy
      show (Function.update s.phase k phase k).held = some y
      rw [hk] at hy ⊢
      rcases hnew with ⟨heq, -⟩ | ⟨heq, -⟩
      · rw [heq] at hy
        cases hy
      · rw [heq] at hy ⊢
        exact hy
    · obtain hy : (Function.update s.phase k phase k).held = some y := hy.resolve_left nofun
      rw [hk] at hy
      rcases hnew with ⟨heq, -⟩ | ⟨heq, -, hnil⟩
      · rw [heq] at hy
        cases hy
      · rw [heq] at hy
        obtain rfl := Option.some.inj hy
        -- nothing has been written, and nothing has been flushed
        show TLog.Filed (Function.update s.log s.allocated (TLog.made lib k opened) s.allocated)
          (lib.content (Function.update s.log s.allocated (TLog.made lib k opened) s.allocated).iob)
          (s.file k) (s.closed k) (Function.update s.written k written k)
        rw [hlog', Function.update_self, hnil, hok.file hown hheld]
        exact ⟨⟨[], lib.content_alloc, (List.append_nil _).symm⟩, fun _ => lib.content_alloc⟩
  · rcases hfreed y hy with hin | heq
    · exact Nat.lt_succ_of_lt (h.freed_lt y hin)
    · rw [heq]
      exact Nat.lt_succ_self _
  · rcases hnew with ⟨-, heq⟩ | ⟨-, heq, -⟩
    · rw [heq]
      exact List.nodup_cons.mpr ⟨hout, h.freedOnce⟩
    · rw [heq]
      exact h.freedOnce
  · -- a log of this thread is the new one
    have heq : y = s.allocated := by
      by_contra hne
      obtain htid : (Function.update s.log s.allocated (TLog.made lib k opened) y).tid = k := htid
      rw [hlog y hne] at htid
      have hlt : y < s.allocated := by
        obtain hy : y < s.allocated + 1 := hy
        omega
      have hin : y ∉ s.freed := fun hin => hlive (by
        rcases hnew with ⟨-, heq⟩ | ⟨-, heq, -⟩
        · rw [heq]
          exact List.mem_cons_of_mem _ hin
        · rw [heq]
          exact hin)
      have hhand := h.in_hand hown ⟨hlt, hin, htid⟩
      rw [hheld] at hhand
      cases hhand
    show (Function.update s.phase k phase k).held = some y
    rw [Function.update_self]
    rcases hnew with ⟨-, hfree⟩ | ⟨hadding, -⟩
    · exact absurd (by rw [hfree, heq]; exact List.mem_cons_self) hlive
    · rw [hadding, heq]
      rfl
  · obtain htid : (Function.update s.log s.allocated (TLog.made lib k opened) y).tid ≠ k := htid
    show y < s.allocated ∧ (s.log y).tid =
      (Function.update s.log s.allocated (TLog.made lib k opened) y).tid
    have hne : y ≠ s.allocated := fun heq => htid (by rw [heq, hlog', TLog.made_tid])
    refine ⟨?_, by rw [hlog y hne]⟩
    obtain hy : y < s.allocated + 1 := hy
    omega
  · rcases hnew with ⟨-, heq⟩ | ⟨-, heq, -⟩
    · rw [heq]
      exact List.mem_cons_of_mem _ hy
    · rw [heq]
      exact hy

/-- `TLogOpen` up to `IOBAlloc`. -/
theorem TLogsInv.allocate (h : TLogsInv lib s own l) (hphase : s.phase k = .allocating) (memory iob : Bool)
    (opened : List UInt8) : TLogsInv lib (s.allocate lib k memory iob opened) own l := by
  have hheld : (s.phase k).held = none := by rw [hphase]; rfl
  cases memory with
  | false => exact h.goOn hheld s.entryID rfl nofun nofun
  | true =>
    cases iob with
    | false =>
      have hfreed := h.allocated hphase opened (s.written k) (.inl ⟨rfl, rfl⟩)
      rw [Function.update_eq_self] at hfreed
      exact hfreed
    | true => exact h.allocated hphase opened [] (.inr ⟨rfl, rfl, rfl⟩)

/-- **A log is closed (proved):** what it has lost is the end of what was written. -/
theorem TLog.Filed.closed {l : TLog β} {data content file closed written : List UInt8}
    (h : l.Filed (data ++ content) file closed written) :
    ({ opened := l.opened, written := written, lost := content } : ClosedLog).kept ++ content = written ∧
      file ++ ((if l.fp then [] else openedLine l.opened) ++ data) ++ closedLine =
        closed ++ ({ opened := l.opened, written := written, lost := content } : ClosedLog).text := by
  obtain ⟨flushed, hwritten, hfile⟩ := h.flush.filed
  have hkept : ({ opened := l.opened, written := written, lost := content } : ClosedLog).kept = flushed := by
    rw [ClosedLog.kept, ← hwritten, List.length_append, Nat.add_sub_cancel, List.take_left]
  refine ⟨by rw [hkept, hwritten], ?_⟩
  rw [hfile, if_pos rfl, ClosedLog.text, hkept]
  simp only [List.append_assoc]

/-- **`TLogClose` (proved)** with the log that it has taken off the table. -/
theorem TLogsInv.close (h : TLogsInv lib s own l) {opens : Bool} (hphase : s.phase k = .closing opens x) {fopen : Bool}
    {n : ℕ} (hclose : s.close lib k opens x fopen n = some s') : TLogsInv lib s' own l := by
  have hok := h.thread k
  have hheld : (s.phase k).held = some x := by rw [hphase]; rfl
  obtain ⟨hlive, hown⟩ := hok.held x hheld
  have hx : (s.log x).tid = k := hlive.tid
  rw [ThreadLogs.close] at hclose
  split at hclose
  case isTrue => cases hclose
  case isFalse hn =>
    cases hflush : s.tlFlush x fopen (lib.used (s.log x).iob) n with
    | none =>
      rw [hflush] at hclose
      rw [← Option.some.inj hclose]
      exact h.crash
    | some s₁ =>
      have hend := hok.filed x (.inr hheld)
      -- the piece is the first part of the buffer
      have hsplit : lib.content (s.log x).iob =
          (lib.used (s.log x).iob).take n ++ (lib.content (s.log x).iob).drop n := by
        obtain ⟨behind, hcontent⟩ := lib.used_prefix (s.log x).iob
        rw [← hcontent, List.drop_append_of_le_length (by omega), ← List.append_assoc, List.take_append_drop]
      rw [hsplit] at hend
      have heq : s' = { s with
          log := Function.update s.log x { s.log x with fp := true }
          file := Function.update s.file k (s.file k ++
            ((if (s.log x).fp then [] else openedLine (s.log x).opened) ++ (lib.used (s.log x).iob).take n) ++ closedLine)
          freed := x :: s.freed
          ended := Function.update s.ended k (s.ended k ++ [{
            opened := (s.log x).opened, written := s.written k, lost := (lib.content (s.log x).iob).drop n }])
          phase := Function.update s.phase k (afterClose opens) } := by
        rw [hflush, tlFlush_eq hflush] at hclose
        rw [← Option.some.inj hclose]
        simp only [Option.elim_some, ThreadLogs.fwriteLog, Function.update_self, Function.update_idem, hx]
      have hlog : ∀ y, (Function.update s.log x { s.log x with fp := true } y).tid = (s.log y).tid := by
        intro y
        by_cases hy : y = x
        · rw [hy, Function.update_self]
        · rw [Function.update_of_ne hy]
      have hafter : (afterClose opens).held = none ∧ (afterClose opens).used = none := by
        cases opens <;> exact ⟨rfl, rfl⟩
      have hk : s'.phase k = afterClose opens := by
        rw [heq]
        exact Function.update_self ..
      have hfile : s'.file k = s'.closed k := by
        rw [heq]
        show Function.update s.file k _ k = s.first k ++ (Function.update s.ended k _ k).flatMap ClosedLog.text
        rw [Function.update_self, Function.update_self, List.flatMap_append, List.flatMap_singleton]
        exact hend.closed.2.trans (List.append_assoc ..)
      rw [heq] at hk hfile ⊢
      refine h.step_of ⟨fun j hj => Function.update_of_ne hj .., fun j hj => Function.update_of_ne hj .., rfl,
        fun j hj => Function.update_of_ne hj .., fun _ _ => rfl, Nat.le_refl _,
        fun y _ hy => Function.update_of_ne (fun hyx => hy ?_) .., fun y hy => ?_⟩
        (h.table.congr fun _ y _ => hlog y) (fun _ _ => rfl) ?_ (fun y hy => ?_) ?_ h.lost (fun y hy hin htid => ?_)
        (fun y hy _ => ⟨hy, (hlog y).symm⟩) fun y hy => List.mem_cons_of_mem _ hy
      · rw [hyx]
        exact hx
      · refine (List.mem_cons.mp hy).symm.imp_right fun hyx => (hlog y).trans ?_
        rw [hyx]
        exact hx
      · rw [hown]
        refine ⟨nofun, fun y hy => ?_, fun _ => rfl, fun y hy => ?_, fun e he => ?_, fun _ _ => hfile, fun y hy => ?_⟩
        · rw [hk, hafter.1] at hy
          cases hy
        · rw [hk, hafter.2] at hy
          cases hy
        · obtain he : e ∈ Function.update s.ended k _ k := he
          rw [Function.update_self, List.mem_append, List.mem_singleton] at he
          rcases he with hin | rfl
          · exact hok.ended e hin
          · exact hend.closed.1
        · rw [hk, hafter.1] at hy
          exact (hy.elim nofun nofun : False).elim
      · rcases List.mem_cons.mp hy with hyx | hin
        · rw [hyx]
          exact hlive.allocated
        · exact h.freed_lt y hin
      · exact List.nodup_cons.mpr ⟨hlive.freed, h.freedOnce⟩
      · rw [List.mem_cons, not_or] at hin
        have htid : (s.log y).tid = k := (hlog y).symm.trans htid
        have hhand := h.in_hand hown ⟨hy, hin.2, htid⟩
        rw [hheld] at hhand
        exact absurd (Option.some.inj hhand).symm hin.1

/-! ### The runs -/

/-- **The step lemma (proved):** each step of a thread keeps the lists a map, and every thread in order. -/
theorem tlogStep_inv (h : TLogsInv lib s own l) {a : TLogAction} (hstep : tlogStep lib s (k, a) = some s') :
    ∃ own' l', TLogsInv lib s' own' l' := by
  rw [tlogStep] at hstep
  split at hstep
  case isTrue => cases hstep
  case isFalse =>
    split at hstep
    next c hphase _ =>
      obtain rfl := Option.some.inj hstep
      have hheld : (s.phase k).held = none := by rw [hphase]; rfl
      cases c <;> exact ⟨own, l, h.goOn hheld s.entryID rfl nofun nofun⟩
    next opens hphase _ =>
      obtain rfl := Option.some.inj hstep
      obtain ⟨l', hdone⟩ := h.remove hphase
      exact ⟨_, l', hdone⟩
    next opens x fopen n hphase _ => exact ⟨own, l, h.close hphase hstep⟩
    next memory iob opened hphase _ =>
      obtain rfl := Option.some.inj hstep
      exact ⟨own, l, h.allocate hphase memory iob opened⟩
    next x hphase _ =>
      obtain rfl := Option.some.inj hstep
      obtain ⟨l', hdone⟩ := h.add hphase
      exact ⟨_, l', hdone⟩
    next text hphase _ =>
      obtain rfl := Option.some.inj hstep
      exact ⟨own, l, h.get hphase⟩
    next x text split lap before hphase _ =>
      obtain rfl := Option.some.inj hstep
      have hheld : (s.phase k).held = none := by rw [hphase]; rfl
      have hown : own k = some x := h.works (by rw [hphase]; rfl) hheld
      exact ⟨own, l, h.goOn hheld _ rfl (fun y hy => hown.trans hy) nofun⟩
    next x text texts fopen answers hphase _ =>
      have hheld : (s.phase k).held = none := by rw [hphase]; rfl
      have hown : own k = some x := h.works (by rw [hphase]; rfl) hheld
      refine ⟨own, l, h.iobCall hheld hown (lib.content_write _ text answers) ?_ (fun y hy => ?_) ?_ hstep⟩
      · split <;> rfl
      · split at hy
        · cases hy
        · exact (Option.some.inj hy).symm
      · split <;> nofun
    next x fopen answers hphase _ =>
      have hheld : (s.phase k).held = none := by rw [hphase]; rfl
      have hown : own k = some x := h.works (by rw [hphase]; rfl) hheld
      have hflush : answered (lib.flush (s.log x).iob answers).pieces answers = true →
          lib.content (s.log x).iob ++ ([] : List UInt8).take (lib.flush (s.log x).iob answers).count =
            takenOf (lib.flush (s.log x).iob answers).pieces answers ++
              lib.content (lib.flush (s.log x).iob answers).iob := fun hanswered => by
        rw [List.take_nil, List.append_nil]
        exact lib.content_flush _ answers hanswered
      refine ⟨own, l, h.iobCall hheld hown hflush ?_ ?_ ?_ hstep⟩
      · rfl
      · nofun
      · nofun
    · cases hstep

end Steps

/-- At the start there is no log. -/
theorem ThreadLogs.start_inv {β : Type} (lib : LogBuffer β) (log : ℕ → TLog β) (file : Tid → List UInt8) :
    TLogsInv lib (.start log file) (fun _ => none) fun _ => [] where
  table := ⟨⟨fun _ => rfl, fun _ => trivial, fun _ => List.nodup_nil, nofun⟩, nofun, fun _ => List.nodup_nil,
    fun _ _ => ⟨nofun, fun hx => (List.not_mem_nil hx.1).elim⟩⟩
  thread _ := ⟨nofun, nofun, nofun, nofun, nofun, fun _ _ => (List.append_nil _).symm,
    fun _ hx => (hx.elim nofun nofun : False).elim⟩
  freed_lt := nofun
  freedOnce := List.nodup_nil
  lost := rfl
  kept _ hx := (Nat.not_lt_zero _ hx).elim

/-- **The logs are sound in every run (proved),** whatever the threads do at the same time. -/
theorem reachable_threadLogs {β : Type} {lib : LogBuffer β} {log : ℕ → TLog β} {file : Tid → List UInt8}
    {s : ThreadLogs β} (h : Reachable (enabled (tlogStep lib)) (.start log file) s) : LogsSound lib s := by
  obtain ⟨own, l, hinv⟩ := h.invariant (P := fun s => ∃ own l, TLogsInv lib s own l)
    ⟨_, _, ThreadLogs.start_inv lib log file⟩ fun _ _ _ ⟨_, _, hs⟩ _ hstep => tlogStep_inv hs hstep
  exact hinv.sound

/-- The callback is given one piece. -/
theorem answered_single {piece : List UInt8} {answers : List ℕ} (h : answered [piece] answers = true) :
    ∃ n, answers = [n] := by
  match answers, h with
  | [n], _ => exact ⟨n, rfl⟩
  | _ :: _ :: _, h => simp [answered] at h

/-- A buffer of `size` octets, which hands all that it has to the callback when a text does not fit. -/
def plainLog (size : ℕ) : LogBuffer (List UInt8) where
  content iob := iob
  alloc := []
  write iob text answers :=
    if iob.length + text.length ≤ size then { count := text.length, iob := iob ++ text, pieces := [] }
    else
      let rest := iob.drop (answers.headD 0)
      let room := min text.length (size - rest.length)
      { count := room, iob := rest ++ text.take room, pieces := [iob] }
  flush iob answers := { iob := iob.drop (answers.headD 0), pieces := [iob] }
  used iob := iob
  content_alloc := rfl
  content_write iob text answers hanswered := by
    split at hanswered
    case isTrue hfits =>
      rw [if_pos hfits]
      show iob ++ text.take text.length = [] ++ (iob ++ text)
      rw [List.take_length, List.nil_append]
    case isFalse hfull =>
      rw [if_neg hfull]
      obtain ⟨n, rfl⟩ := answered_single hanswered
      show iob ++ _ = (iob.take n ++ []) ++ (iob.drop n ++ _)
      rw [List.append_nil, ← List.append_assoc, List.take_append_drop]
  content_flush iob answers hanswered := by
    obtain ⟨n, rfl⟩ := answered_single hanswered
    show iob = (iob.take n ++ []) ++ iob.drop n
    rw [List.append_nil, List.take_append_drop]
  used_prefix iob := List.prefix_refl iob

/-- Two threads of one list open their logs at the same time; one of them writes to its log, which is full and flushed
in between, the other one closes it. -/
def twoLogs : List (Tid × TLogAction) :=
  [(1, .call .open), (65, .call .open), (1, .remove), (65, .remove), (65, .allocate true true []),
    (1, .allocate true true []), (1, .add), (65, .add), (65, .call (.write [104, 105])), (65, .get), (1, .call .close),
    (65, .number ⟨0, 0⟩ ⟨0, 0⟩ 0), (1, .remove), (65, .write true []), (1, .close true 0), (65, .write true [10])]

/-- The log of the first thread is freed, that of the other one is on the list, and a part of it is in its file. -/
theorem reachable_threadLogs_two : ∃ s : ThreadLogs (List UInt8), s.freed = [1] ∧ s.tlGet 1 = none ∧
    s.tlGet 65 = some 0 ∧ s.file 65 = openedLine [] ++ octetsOf "00000001 0" ∧ LogsSound (plainLog 24) s := by
  have hrun : ((runFrom (tlogStep (plainLog 24)) (.start (fun _ => { tid := 0, opened := [], iob := [] }) fun _ => [])
      twoLogs).map fun s => (s.freed, s.tlGet 1, s.tlGet 65, s.file 65)) =
      some ([1], none, some 0, openedLine [] ++ octetsOf "00000001 0") := by decide +kernel
  obtain ⟨s, hreached, hs⟩ := Option.map_eq_some_iff.mp hrun
  simp only [Prod.mk.injEq] at hs
  exact ⟨s, hs.1, hs.2.1, hs.2.2.1, hs.2.2.2, reachable_threadLogs (reachable_of_runFrom hreached)⟩

end Connio
