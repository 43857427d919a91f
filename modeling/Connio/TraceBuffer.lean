import Mathlib.Data.List.Basic

/-!
# The file of a buffered trace

A trace keeps its records in an `IOBuffer`, and writes this to its file when it is full, when it is told to, and when it
is closed (`trace.c`, `sockinline.h`).

* `IoBuffer`, `IobCalls` — a ring, and the functions of the buffer library that are called on it;
* `iobDumpToFile`, `traceFlush`, `traceAppendIOB`, `traceFree` — the functions of the source;
* `IobCalls.Appends` — what `IOBWrite` is relied on to do;
* `iobDumpToFile_of_lt`, `iobDumpToFile_of_empty` — **PROVED**: a dump writes what is in the buffer, and of an empty one
  the whole memory;
* `traceFile_iff` — **PROVED**: the file is the concatenation of the records exactly when no dump finds the buffer empty.

Every write to the file accepts its data.
-/

namespace Connio

/-! ### The buffer and the file -/

/-- `IOBuffer`: what is between `buffer` and `end`, and where `r` and `w` are. -/
structure IoBuffer where
  mem : List UInt8
  r : ℕ
  w : ℕ
  deriving DecidableEq, Repr

/-- `fwrite` of one item; of no bytes it writes no item. -/
def fwrite (file data : List UInt8) : ℕ × List UInt8 := if data = [] then (0, file) else (1, file ++ data)

namespace IoBuffer

variable (iob : IoBuffer)

/-- What is between two places of the memory. -/
def slice (first last : ℕ) : List UInt8 := (iob.mem.drop first).take (last - first)

/-- **What is in the buffer:** nothing when `r = w`. -/
def contents : List UInt8 :=
  if iob.r ≤ iob.w then iob.slice iob.r iob.w else iob.slice iob.r iob.mem.length ++ iob.slice 0 iob.w

/-- `IOBInit` -/
def iobInit : IoBuffer := { iob with r := 0, w := 0 }

/-- `iobDumpToFile`: whether the result is 0, and the file. -/
def iobDumpToFile (file : List UInt8) : Bool × List UInt8 :=
  if iob.w > iob.r then
    let (items, file) := fwrite file (iob.slice iob.r iob.w)
    (items == 1, file)
  else
    let (items, file) := fwrite file (iob.slice iob.r iob.mem.length)
    if items ≠ 1 then (false, file)
    else
      let (items, file) := fwrite file (iob.slice 0 iob.w)
      (items == 1, file)

end IoBuffer

/-- `IOBGetFree`, `IOBWrite` and `IOBLog`; the latter two give the number of bytes they have taken. -/
structure IobCalls where
  getFree : IoBuffer → ℕ
  write : IoBuffer → List UInt8 → ℕ × IoBuffer
  log : IoBuffer → List UInt8 → ℕ × IoBuffer

/-- What a `TraceConfig` has to do with its output. -/
structure TraceOutput where
  /-- `TRACE_FLUSH_WHEN_FULL` -/
  flushWhenFull : Bool
  /-- `TRACE_FLUSH_WHEN_CLOSED` -/
  flushWhenClosed : Bool := false
  iob : Option IoBuffer
  /-- what has been written to `file` -/
  file : List UInt8 := []

namespace TraceOutput

variable (calls : IobCalls) (t : TraceOutput)

/-- The buffer is written to the file, and is empty. -/
def dump : TraceOutput :=
  match t.iob with
  | some iob => { t with file := (iob.iobDumpToFile t.file).2, iob := some iob.iobInit }
  | none => t

/-- `traceFlush` -/
def traceFlush (data : Option (List UInt8)) : ℕ × TraceOutput :=
  match data with
  | some data =>
    (if (fwrite t.dump.file data).1 = 1 then data.length else 0, { t.dump with file := (fwrite t.dump.file data).2 })
  | none => (0, t.dump)

/-- `traceAppendIOB`, which is called for a trace with a buffer. -/
def traceAppendIOB (data : List UInt8) : ℕ × TraceOutput :=
  match t.iob with
  | some iob =>
    if t.flushWhenFull = false then
      ((calls.log iob data).1, { t with iob := some (calls.log iob data).2 })
    else if calls.getFree iob > data.length then
      ((calls.write iob data).1, { t with iob := some (calls.write iob data).2 })
    else t.traceFlush (some data)
  | none => (0, t)

/-- `traceFree`: the file when it is closed. -/
def traceFree : List UInt8 :=
  match t.iob with
  | some iob => if t.flushWhenClosed || t.flushWhenFull then (iob.iobDumpToFile t.file).2 else t.file
  | none => t.file

end TraceOutput

inductive TraceWrite where
  | append (data : List UInt8)
  /-- `SocketTraceFlush` -/
  | flush
  deriving DecidableEq, Repr

namespace TraceWrite

/-- The record that is written. -/
def data : TraceWrite → List UInt8
  | append data => data
  | flush => []

/-- What a call leaves. -/
def run (calls : IobCalls) (t : TraceOutput) : TraceWrite → TraceOutput
  | append data => (t.traceAppendIOB calls data).2
  | flush => (t.traceFlush none).2

/-- The call writes the buffer to the file: it is a flush, or its record does not fit. -/
def Dumps (calls : IobCalls) (iob : IoBuffer) : TraceWrite → Prop
  | append data => calls.getFree iob ≤ data.length
  | flush => True

end TraceWrite

/-- The file of a trace when it is closed after some calls. -/
def traceFile (calls : IobCalls) : TraceOutput → List TraceWrite → List UInt8
  | t, [] => t.traceFree
  | t, c :: cs => traceFile calls (c.run calls t) cs

/-- **No dump finds the buffer empty:** no flush, no record that does not fit, and not the close. -/
def NeverDumpsEmpty (calls : IobCalls) (t : TraceOutput) : List TraceWrite → Prop
  | [] => ∀ iob, t.iob = some iob → iob.r ≠ iob.w
  | c :: cs => (∀ iob, t.iob = some iob → c.Dumps calls iob → iob.r ≠ iob.w) ∧ NeverDumpsEmpty calls (c.run calls t) cs

/-! ### The buffer library -/

/-- The records of a trace are in a ring from its start: `IOBInit` has set `r`, and no one reads. -/
structure IoBuffer.FromStart (iob : IoBuffer) : Prop where
  size : 0 < iob.mem.length
  r : iob.r = 0
  w : iob.w ≤ iob.mem.length

/-- **`IOBWrite` appends a record for which `IOBGetFree` has found more than its length free,** and leaves `r` alone. -/
def IobCalls.Appends (calls : IobCalls) : Prop :=
  ∀ iob data, iob.FromStart → calls.getFree iob > data.length →
    (calls.write iob data).2.FromStart ∧ (calls.write iob data).2.contents = iob.contents ++ data

/-- A library for buffers that start at their first byte. -/
def plainCalls : IobCalls where
  getFree iob := iob.mem.length - iob.w
  write iob data :=
    (data.length, { iob with
      mem := iob.mem.take iob.w ++ data ++ iob.mem.drop (iob.w + data.length)
      w := iob.w + data.length })
  log iob _ := (0, iob)

section Buffer

variable {iob : IoBuffer}

theorem IoBuffer.FromStart.contents_eq (h : iob.FromStart) : iob.contents = iob.mem.take iob.w := by
  unfold IoBuffer.contents IoBuffer.slice
  rw [h.r, if_pos (Nat.zero_le _), List.drop_zero, Nat.sub_zero]

theorem plainCalls_appends : plainCalls.Appends := by
  intro iob data h hfree
  have hfit : iob.w + data.length < iob.mem.length := by
    have hfree' : iob.mem.length - iob.w > data.length := hfree
    omega
  have htake : (iob.mem.take iob.w).length = iob.w := List.length_take_of_le h.w
  have hwritten : (plainCalls.write iob data).2.FromStart := by
    refine ⟨?_, h.r, ?_⟩
    · show 0 < (iob.mem.take iob.w ++ data ++ iob.mem.drop (iob.w + data.length)).length
      rw [List.length_append, List.length_append, List.length_drop]
      omega
    · show iob.w + data.length ≤ (iob.mem.take iob.w ++ data ++ iob.mem.drop (iob.w + data.length)).length
      rw [List.length_append, List.length_append, htake]
      omega
  refine ⟨hwritten, ?_⟩
  rw [hwritten.contents_eq, h.contents_eq]
  show (iob.mem.take iob.w ++ data ++ iob.mem.drop (iob.w + data.length)).take (iob.w + data.length) = _
  rw [List.take_left']
  rw [List.length_append, htake]

/-! ### A dump -/

theorem fwrite_snd (file data : List UInt8) : (fwrite file data).2 = file ++ data := by
  unfold fwrite
  split
  next hnil => rw [hnil, List.append_nil]
  next => rfl

/-- **A dump writes what is in the buffer (proved).** -/
theorem iobDumpToFile_of_lt (h : iob.FromStart) (hne : iob.r ≠ iob.w) (file : List UInt8) :
    (iob.iobDumpToFile file).2 = file ++ iob.contents := by
  have hlt : iob.w > iob.r := by
    have hr := h.r
    omega
  unfold IoBuffer.iobDumpToFile
  rw [if_pos hlt, h.contents_eq]
  show (fwrite file (iob.slice iob.r iob.w)).2 = _
  rw [fwrite_snd]
  unfold IoBuffer.slice
  rw [h.r, List.drop_zero, Nat.sub_zero]

/-- **A dump of an empty buffer writes its whole memory (proved).** -/
theorem iobDumpToFile_of_empty (h : iob.FromStart) (heq : iob.r = iob.w) (file : List UInt8) :
    (iob.iobDumpToFile file).2 = file ++ iob.mem := by
  have hmem : iob.mem ≠ [] := List.length_pos_iff.mp h.size
  have hall : iob.slice iob.r iob.mem.length = iob.mem := by
    unfold IoBuffer.slice
    rw [h.r, List.drop_zero, Nat.sub_zero, List.take_length]
  have hnone : iob.slice 0 iob.w = [] := by
    unfold IoBuffer.slice
    rw [← heq, h.r]
    rfl
  have hitem : fwrite file iob.mem = (1, file ++ iob.mem) := if_neg hmem
  unfold IoBuffer.iobDumpToFile
  rw [if_neg (by omega), hall, hnone, hitem]
  rfl

/-- What a dump adds to the file is at least as long as what is in the buffer, and longer when this is empty. -/
theorem iobDumpToFile_length (h : iob.FromStart) (file : List UInt8) :
    file.length + iob.contents.length ≤ (iob.iobDumpToFile file).2.length ∧
      (iob.r = iob.w → file.length + iob.contents.length < (iob.iobDumpToFile file).2.length) := by
  by_cases heq : iob.r = iob.w
  · have hsize := h.size
    have hcontents : iob.contents.length = 0 := by
      rw [h.contents_eq, ← heq, h.r]
      rfl
    rw [iobDumpToFile_of_empty h heq, List.length_append, hcontents]
    exact ⟨by omega, fun _ => by omega⟩
  · rw [iobDumpToFile_of_lt h heq, List.length_append]
    exact ⟨Nat.le_refl _, fun heq' => absurd heq' heq⟩

end Buffer

/-! ### A call -/

section Calls

variable {calls : IobCalls} {t : TraceOutput} {iob : IoBuffer} {c : TraceWrite}

/-- A trace that is flushed when it is full, with its buffer. -/
structure TraceOutput.Buffered (t : TraceOutput) (iob : IoBuffer) : Prop where
  flushWhenFull : t.flushWhenFull = true
  buffer : t.iob = some iob
  start : iob.FromStart

theorem TraceOutput.Buffered.iob_unique (h : t.Buffered iob) {iob' : IoBuffer} (h' : t.iob = some iob') : iob' = iob :=
  Option.some.inj (h'.symm.trans h.buffer)

/-- What is in the file and in the buffer. -/
def TraceOutput.stored (t : TraceOutput) (iob : IoBuffer) : List UInt8 := t.file ++ iob.contents

theorem IoBuffer.FromStart.init (h : iob.FromStart) : iob.iobInit.FromStart ∧ iob.iobInit.contents = [] := by
  have hinit : iob.iobInit.FromStart := ⟨h.size, rfl, Nat.zero_le _⟩
  refine ⟨hinit, ?_⟩
  rw [hinit.contents_eq]
  rfl

/-- A call that dumps the buffer writes its record behind that. -/
theorem TraceWrite.run_of_dumps (h : t.Buffered iob) (hdumps : c.Dumps calls iob) :
    (c.run calls t).Buffered iob.iobInit ∧
      (c.run calls t).stored iob.iobInit = (iob.iobDumpToFile t.file).2 ++ c.data := by
  obtain ⟨hinit, hempty⟩ := h.start.init
  have hdump : t.dump = { t with file := (iob.iobDumpToFile t.file).2, iob := some iob.iobInit } := by
    unfold TraceOutput.dump
    rw [h.buffer]
  have hrun : (c.run calls t) =
      { t with file := (iob.iobDumpToFile t.file).2 ++ c.data, iob := some iob.iobInit } := by
    cases c with
    | append data =>
      have hfull : ¬ calls.getFree iob > data.length := Nat.not_lt.mpr hdumps
      have happend : t.traceAppendIOB calls data = t.traceFlush (some data) := by
        unfold TraceOutput.traceAppendIOB
        rw [h.buffer]
        simp only [h.flushWhenFull, Bool.true_eq_false, if_false, hfull]
      show (t.traceAppendIOB calls data).2 = _
      rw [happend]
      show { t.dump with file := (fwrite t.dump.file data).2 } = _
      rw [hdump, fwrite_snd]
      rfl
    | flush =>
      show t.dump = _
      rw [hdump]
      exact congrArg (fun file => { t with file := file, iob := some iob.iobInit }) (List.append_nil _).symm
  rw [hrun]
  refine ⟨⟨h.flushWhenFull, rfl, hinit⟩, ?_⟩
  show (iob.iobDumpToFile t.file).2 ++ c.data ++ iob.iobInit.contents = _
  rw [hempty, List.append_nil]

/-- A record that fits goes to the buffer. -/
theorem TraceWrite.run_of_fits (hcalls : calls.Appends) (h : t.Buffered iob) (hfits : ¬ c.Dumps calls iob) :
    ∃ iob', (c.run calls t).Buffered iob' ∧ (c.run calls t).stored iob' = t.stored iob ++ c.data := by
  cases c with
  | append data =>
    have hfree : calls.getFree iob > data.length := Nat.not_le.mp hfits
    obtain ⟨hstart, hcontents⟩ := hcalls iob data h.start hfree
    have hrun : (TraceWrite.append data).run calls t = { t with iob := some (calls.write iob data).2 } := by
      show (t.traceAppendIOB calls data).2 = _
      unfold TraceOutput.traceAppendIOB
      rw [h.buffer]
      simp only [h.flushWhenFull, Bool.true_eq_false, if_false, hfree, if_true]
    rw [hrun]
    refine ⟨(calls.write iob data).2, ⟨h.flushWhenFull, rfl, hstart⟩, ?_⟩
    show t.file ++ (calls.write iob data).2.contents = t.file ++ iob.contents ++ data
    rw [hcontents, List.append_assoc]
  | flush => exact absurd trivial hfits

/-- **A call that does not dump an empty buffer (proved)** stores its record behind what is stored. -/
theorem TraceWrite.run_stored (hcalls : calls.Appends) (h : t.Buffered iob)
    (hne : c.Dumps calls iob → iob.r ≠ iob.w) :
    ∃ iob', (c.run calls t).Buffered iob' ∧ (c.run calls t).stored iob' = t.stored iob ++ c.data := by
  by_cases hdumps : c.Dumps calls iob
  · obtain ⟨hbuffered, hstored⟩ := TraceWrite.run_of_dumps h hdumps
    rw [iobDumpToFile_of_lt h.start (hne hdumps)] at hstored
    exact ⟨_, hbuffered, hstored⟩
  · exact TraceWrite.run_of_fits hcalls h hdumps

/-- **A call never stores less than its record (proved),** and more when it dumps an empty buffer. -/
theorem TraceWrite.run_length (hcalls : calls.Appends) (h : t.Buffered iob) :
    ∃ iob', (c.run calls t).Buffered iob' ∧
      (t.stored iob).length + c.data.length ≤ ((c.run calls t).stored iob').length ∧
      (c.Dumps calls iob → iob.r = iob.w →
        (t.stored iob).length + c.data.length < ((c.run calls t).stored iob').length) := by
  by_cases hdumps : c.Dumps calls iob
  · obtain ⟨hbuffered, hstored⟩ := TraceWrite.run_of_dumps h hdumps
    obtain ⟨hle, hlt⟩ := iobDumpToFile_length h.start t.file
    refine ⟨_, hbuffered, ?_, fun _ heq => ?_⟩
    · rw [hstored, TraceOutput.stored, List.length_append, List.length_append]
      omega
    · have hmore := hlt heq
      rw [hstored, TraceOutput.stored, List.length_append, List.length_append]
      omega
  · obtain ⟨iob', hbuffered, hstored⟩ := TraceWrite.run_of_fits hcalls h hdumps
    refine ⟨iob', hbuffered, Nat.le_of_eq ?_, fun hdumps' => absurd hdumps' hdumps⟩
    rw [hstored, List.length_append]

end Calls

/-! ### A run -/

section Run

variable {calls : IobCalls}

theorem traceFree_of_buffered {t : TraceOutput} {iob : IoBuffer} (h : t.Buffered iob) :
    t.traceFree = (iob.iobDumpToFile t.file).2 := by
  unfold TraceOutput.traceFree
  rw [h.buffer]
  simp only [h.flushWhenFull, Bool.or_true, if_true]

/-- **The file when no dump finds the buffer empty (proved).** -/
theorem traceFile_stored (hcalls : calls.Appends) (cs : List TraceWrite) : ∀ {t : TraceOutput} {iob : IoBuffer},
    t.Buffered iob → NeverDumpsEmpty calls t cs →
      traceFile calls t cs = t.stored iob ++ cs.flatMap TraceWrite.data := by
  induction cs with
  | nil =>
    intro t iob h hnever
    show t.traceFree = t.stored iob ++ []
    rw [traceFree_of_buffered h, iobDumpToFile_of_lt h.start (hnever iob h.buffer), List.append_nil]
    rfl
  | cons c cs ih =>
    rintro t iob h ⟨hc, hrest⟩
    obtain ⟨iob', hbuffered, hstored⟩ := TraceWrite.run_stored hcalls h (hc iob h.buffer)
    show traceFile calls (c.run calls t) cs = _
    rw [ih hbuffered hrest, hstored, List.flatMap_cons, List.append_assoc]

/-- **The file when a dump finds the buffer empty (proved)** is too long. -/
theorem traceFile_length (hcalls : calls.Appends) (cs : List TraceWrite) : ∀ {t : TraceOutput} {iob : IoBuffer},
    t.Buffered iob →
      (t.stored iob ++ cs.flatMap TraceWrite.data).length ≤ (traceFile calls t cs).length ∧
      (¬ NeverDumpsEmpty calls t cs →
        (t.stored iob ++ cs.flatMap TraceWrite.data).length < (traceFile calls t cs).length) := by
  induction cs with
  | nil =>
    intro t iob h
    obtain ⟨hle, hlt⟩ := iobDumpToFile_length h.start t.file
    show (t.file ++ iob.contents ++ []).length ≤ t.traceFree.length ∧ _
    rw [traceFree_of_buffered h, List.append_nil, List.length_append]
    refine ⟨hle, fun hempty => ?_⟩
    rw [show traceFile calls t [] = t.traceFree from rfl, traceFree_of_buffered h]
    refine Nat.lt_of_le_of_lt (Nat.le_of_eq ?_) (hlt ?_)
    · show (t.file ++ iob.contents ++ []).length = _
      rw [List.append_nil, List.length_append]
    · by_contra hne
      refine hempty fun iob' hiob' => ?_
      rw [h.iob_unique hiob']
      exact hne
  | cons c cs ih =>
    intro t iob h
    obtain ⟨iob', hbuffered, hle, hlt⟩ := TraceWrite.run_length (c := c) hcalls h
    obtain ⟨hle', hlt'⟩ := ih hbuffered
    rw [List.length_append] at hle' hlt'
    rw [List.length_append, List.flatMap_cons, List.length_append]
    show _ ≤ (traceFile calls (c.run calls t) cs).length ∧ (_ → _ < (traceFile calls (c.run calls t) cs).length)
    refine ⟨by omega, fun hempty => ?_⟩
    by_cases hc : c.Dumps calls iob ∧ iob.r = iob.w
    · have hmore := hlt hc.1 hc.2
      omega
    · have hrest : ¬ NeverDumpsEmpty calls (c.run calls t) cs := by
        refine fun hrest => hempty ⟨fun iob' hiob' hdumps heq => hc ?_, hrest⟩
        rw [h.iob_unique hiob'] at hdumps heq
        exact ⟨hdumps, heq⟩
      have hmore := hlt' hrest
      omega

/-- A trace that is flushed when it is full, with a new buffer. -/
def TraceOutput.opened (mem : List UInt8) (flushWhenClosed : Bool) : TraceOutput where
  flushWhenFull := true
  flushWhenClosed := flushWhenClosed
  iob := some (IoBuffer.iobInit ⟨mem, 0, 0⟩)

/-- **The file of a buffered trace is the concatenation of its records (proved)** exactly when no dump finds the buffer
empty. -/
theorem traceFile_iff (hcalls : calls.Appends) {mem : List UInt8} (hsize : 0 < mem.length) (flushWhenClosed : Bool)
    (cs : List TraceWrite) : traceFile calls (.opened mem flushWhenClosed) cs = cs.flatMap TraceWrite.data ↔
      NeverDumpsEmpty calls (.opened mem flushWhenClosed) cs := by
  have hbuffered : (TraceOutput.opened mem flushWhenClosed).Buffered (IoBuffer.iobInit ⟨mem, 0, 0⟩) :=
    ⟨rfl, rfl, hsize, rfl, Nat.zero_le _⟩
  have hstored : (TraceOutput.opened mem flushWhenClosed).stored (IoBuffer.iobInit ⟨mem, 0, 0⟩) = [] := rfl
  constructor
  · intro hfile
    by_contra hempty
    have hlong := (traceFile_length hcalls cs hbuffered).2 hempty
    rw [hstored, List.nil_append, hfile] at hlong
    exact Nat.lt_irrefl _ hlong
  · intro hnever
    rw [traceFile_stored hcalls cs hbuffered hnever, hstored, List.nil_append]

/-- Two records in a buffer of four bytes, of which the second does not fit, and a third one before the close. -/
theorem traceFile_iff_plain : (traceFile plainCalls (.opened [0, 0, 0, 0] false)
    [.append [1, 2], .append [3, 4], .append [5]] = [1, 2, 3, 4, 5] ↔
      NeverDumpsEmpty plainCalls (.opened [0, 0, 0, 0] false) [.append [1, 2], .append [3, 4], .append [5]]) :=
  traceFile_iff plainCalls_appends (by decide) false _

/-- A trace that is closed right after a flush: the memory of the buffer follows its record. -/
theorem traceFile_stale : ¬ (traceFile plainCalls (.opened [0, 0, 0, 0] false) [.append [7], .flush] = [7]) ∧
    traceFile plainCalls (.opened [0, 0, 0, 0] false) [.append [7], .flush] = [7, 7, 0, 0, 0] := by
  decide

end Run

end Connio
