import Mathlib.Algebra.Order.Group.Int
import Mathlib.Data.List.Nodup
import Mathlib.Logic.Function.Basic

/-!
# Which sockets share a trace

`SocketTraceBeginEx` starts a trace of a socket or lets it share that of another one, and `SocketTraceEnd` ends it; the
last socket of a trace frees it (`trace.c`).

* `TraceConfig`, `TraceSystem` — a trace with its count, and the sockets that point to it;
* `traceAlloc`, `traceFree`, `socketTraceBeginEx`, `socketTraceEnd` — the functions of the source;
* `TracesSound` — each trace that has not been freed counts its sockets, and no socket points to another one;
* `call_sound` — **PROVED**: a call keeps this unless it finds no memory, no file or no buffer for a trace of its own;
* `call_of_allocFails` — **PROVED**: if it does not find them it uses NULL;
* `tracesSoundIn_iff` — **PROVED**: a run is sound exactly when no call of it does that.
-/

namespace Connio

/-! ### Traces and sockets -/

structure TraceConfig where
  useCount : ℤ := 0
  /-- there is a `file` -/
  opened : Bool := false
  /-- there is an `iob` -/
  buffered : Bool := false
  /-- how often the file has been closed, and the trace been passed to `MemFree` -/
  closes : ℕ := 0
  frees : ℕ := 0

structure TraceSystem where
  /-- `socket->trace` -/
  trace : ℕ → Option ℕ := fun _ => none
  config : ℕ → TraceConfig := fun _ => {}
  /-- the traces below this number have been allocated -/
  allocated : ℕ := 0

/-- What `MemMalloc`, `traceFileOpen` and `IOBAllocEx` answer. -/
structure TraceAnswers where
  memory : Bool
  file : Bool
  iob : Bool
  deriving DecidableEq, Repr

/-- They answer with what a trace with a buffer of this size needs. -/
def TraceAnswers.Succeeds (a : TraceAnswers) (bufferSize : ℕ) : Prop :=
  a.memory = true ∧ a.file = true ∧ (bufferSize = 0 ∨ a.iob = true)

instance (a : TraceAnswers) (bufferSize : ℕ) : Decidable (a.Succeeds bufferSize) :=
  inferInstanceAs (Decidable (_ ∧ _ ∧ (_ ∨ _)))

namespace TraceSystem

variable (s : TraceSystem)

/-- A trace changes. -/
def setConfig (id : ℕ) (f : TraceConfig → TraceConfig) : TraceSystem :=
  { s with config := Function.update s.config id (f (s.config id)) }

/-- `socket->trace` changes. -/
def setTrace (socket : ℕ) (trace : Option ℕ) : TraceSystem :=
  { s with trace := Function.update s.trace socket trace }

/-- `fclose( trace->file )` -/
def fclose (id : ℕ) : TraceSystem := s.setConfig id fun c => { c with closes := c.closes + 1 }

/-- `MemFree( trace )` -/
def memFree (id : ℕ) : TraceSystem := s.setConfig id fun c => { c with frees := c.frees + 1 }

/-- `traceAlloc` -/
def traceAlloc (bufferSize : ℕ) (a : TraceAnswers) : Option ℕ × TraceSystem :=
  if a.memory = true then
    let id := s.allocated
    let s := { s.setConfig id fun _ => {} with allocated := id + 1 }
    if a.file = true then
      let s := s.setConfig id fun c => { c with opened := true }
      if bufferSize = 0 then (some id, s)
      else if a.iob = true then (some id, s.setConfig id fun c => { c with buffered := true })
      else (none, (s.fclose id).memFree id)
    else (none, s.memFree id)
  else (none, s)

/-- `traceFree` -/
def traceFree (socket : ℕ) : TraceSystem :=
  match s.trace socket with
  | some id => ((s.fclose id).memFree id).setTrace socket none
  | none => s

/-- `socketTraceEnd` -/
def socketTraceEnd (socket : ℕ) : TraceSystem :=
  match s.trace socket with
  | some id =>
    let s := s.setConfig id fun c => { c with useCount := c.useCount - 1 }
    let s := if (s.config id).useCount < 1 then s.traceFree socket else s
    s.setTrace socket none
  | none => s

/-- `socketTraceBeginEx`; `none` when it uses NULL. -/
def socketTraceBeginEx (socket bufferSize : ℕ) (tracedSocket : Option ℕ) (a : TraceAnswers) :
    Option (Bool × TraceSystem) :=
  match s.trace socket with
  | some _ => some (false, s)
  | none =>
    match tracedSocket with
    | none =>
      match s.traceAlloc bufferSize a with
      | (none, _) => none
      | (some id, s) =>
        some (true, (s.setTrace socket (some id)).setConfig id fun c => { c with useCount := c.useCount + 1 })
    | some traced =>
      match s.trace traced with
      | none => some (false, s)
      | some id =>
        some (true, (s.setConfig id fun c => { c with useCount := c.useCount + 1 }).setTrace socket (some id))

end TraceSystem

inductive TraceCall where
  | begin (socket bufferSize : ℕ) (tracedSocket : Option ℕ) (answers : TraceAnswers)
  /-- `SocketTraceEnd` -/
  | finish (socket : ℕ)
  /-- `connFreeEx`, which calls `SocketTraceEnd` before it releases the socket -/
  | release (socket : ℕ)
  deriving DecidableEq, Repr

/-- **One call:** what it returns, and what it leaves; `none` when it uses NULL. -/
def TraceSystem.call (s : TraceSystem) : TraceCall → Option (Bool × TraceSystem)
  | .begin socket bufferSize tracedSocket a => s.socketTraceBeginEx socket bufferSize tracedSocket a
  | .finish socket | .release socket => some (true, s.socketTraceEnd socket)

/-! ### What is to hold -/

/-- `l` are the sockets whose trace is this one. -/
def TraceSystem.Users (s : TraceSystem) (id : ℕ) (l : List ℕ) : Prop :=
  l.Nodup ∧ ∀ socket, socket ∈ l ↔ s.trace socket = some id

/-- A trace that `n` sockets point to: they are counted, and its file is open. -/
structure TraceConfig.Live (c : TraceConfig) (n : ℕ) : Prop where
  useCount : c.useCount = n
  used : 0 < n
  opened : c.opened = true
  closes : c.closes = 0
  frees : c.frees = 0

/-- A trace that has been freed once, and its file, if there was one, been closed once. -/
structure TraceConfig.Freed (c : TraceConfig) : Prop where
  closes : c.closes = if c.opened = true then 1 else 0
  frees : c.frees = 1

/-- **Each trace that has not been freed counts the sockets that point to it, and there is one; no socket points to
another trace.** -/
structure TracesSound (s : TraceSystem) : Prop where
  config : ∀ id < s.allocated, ∃ l, s.Users id l ∧ ((s.config id).Live l.length ∨ (s.config id).Freed ∧ l = [])
  trace : ∀ socket id, s.trace socket = some id → id < s.allocated

/-- What a call returns: TRUE when a trace of an untraced socket has begun, and FALSE when the socket is as it was. -/
def TraceCall.Returns (s : TraceSystem) (r : Bool) (t : TraceSystem) : TraceCall → Prop
  | begin socket _ _ _ =>
    if r = true then s.trace socket = none ∧ t.trace socket ≠ none else t.trace socket = s.trace socket
  | finish socket | release socket => t.trace socket = none

/-- **The traces are sound throughout the calls,** none of which uses NULL. -/
def TracesSoundIn (s : TraceSystem) : List TraceCall → Prop
  | [] => TracesSound s
  | c :: cs => TracesSound s ∧ ∃ r t, s.call c = some (r, t) ∧ c.Returns s r t ∧ TracesSoundIn t cs

/-- A trace of its own is begun for an untraced socket, and `traceAlloc` does not find what it needs. -/
def TraceCall.AllocFails (s : TraceSystem) : TraceCall → Prop
  | begin socket bufferSize none a => s.trace socket = none ∧ ¬ a.Succeeds bufferSize
  | begin _ _ (some _) _ | finish _ | release _ => False

/-- No call fails in `traceAlloc`. -/
def NeverFails (s : TraceSystem) : List TraceCall → Prop
  | [] => True
  | c :: cs => ¬ c.AllocFails s ∧ ∀ r t, s.call c = some (r, t) → NeverFails t cs

/-! ### The sockets of a trace -/

section Users

variable {s t : TraceSystem} {id socket : ℕ} {l : List ℕ} {v : Option ℕ}

/-- The sockets of a trace do not change with a socket that comes to another one. -/
theorem TraceSystem.Users.keep (h : s.Users id l) (ht : t.trace = Function.update s.trace socket v)
    (hsame : s.trace socket = some id ↔ v = some id) : t.Users id l := by
  refine ⟨h.1, fun k => ?_⟩
  rw [h.2, ht]
  by_cases hk : k = socket
  · rw [hk, Function.update_self]
    exact hsame
  · rw [Function.update_of_ne hk]

/-- A trace has a socket more. -/
theorem TraceSystem.Users.cons (h : s.Users id l) (ht : t.trace = Function.update s.trace socket (some id))
    (hold : s.trace socket = none) : t.Users id (socket :: l) := by
  have hnot : socket ∉ l := fun hmem => by
    rw [h.2, hold] at hmem
    cases hmem
  refine ⟨List.nodup_cons.mpr ⟨hnot, h.1⟩, fun k => ?_⟩
  rw [List.mem_cons, h.2, ht]
  by_cases hk : k = socket
  · rw [hk, Function.update_self]
    exact iff_of_true (.inl rfl) rfl
  · rw [Function.update_of_ne hk, or_iff_right hk]

/-- A trace has a socket less. -/
theorem TraceSystem.Users.erase (h : s.Users id l) (ht : t.trace = Function.update s.trace socket none) :
    t.Users id (l.erase socket) := by
  refine ⟨h.1.erase socket, fun k => ?_⟩
  rw [h.1.mem_erase_iff, h.2, ht]
  by_cases hk : k = socket
  · rw [hk, Function.update_self]
    exact iff_of_false (fun hne => hne.1 rfl) fun heq => by cases heq
  · rw [Function.update_of_ne hk]
    exact and_iff_right hk

end Users

/-! ### A call -/

section Calls

variable {s t : TraceSystem} {id socket : ℕ}

/-- One trace and one socket change; every other trace keeps its sockets. -/
theorem TracesSound.change (h : TracesSound s) {v : Option ℕ} {c : TraceConfig}
    (htrace : t.trace = Function.update s.trace socket v) (hconfig : t.config = Function.update s.config id c)
    (hallocated : s.allocated ≤ t.allocated) (hid : ∀ n, n < t.allocated → n ≠ id → n < s.allocated)
    (hother : ∀ n, n ≠ id → (s.trace socket = some n ↔ v = some n)) (hv : ∀ n, v = some n → n < t.allocated)
    (hself : ∃ l, t.Users id l ∧ (c.Live l.length ∨ c.Freed ∧ l = [])) : TracesSound t where
  config n hn := by
    by_cases hne : n = id
    · rw [hne, hconfig, Function.update_self]
      exact hself
    · obtain ⟨l, husers, hstate⟩ := h.config n (hid n hn hne)
      rw [hconfig, Function.update_of_ne hne]
      exact ⟨l, husers.keep htrace (hother n hne), hstate⟩
  trace k n hk := by
    rw [htrace] at hk
    by_cases hks : k = socket
    · rw [hks, Function.update_self] at hk
      exact hv n hk
    · rw [Function.update_of_ne hks] at hk
      exact lt_of_lt_of_le (h.trace k n hk) hallocated

/-- The trace of a socket counts it. -/
theorem TracesSound.live (h : TracesSound s) (hid : s.trace socket = some id) :
    ∃ l, s.Users id l ∧ socket ∈ l ∧ (s.config id).Live l.length := by
  obtain ⟨l, husers, hstate⟩ := h.config id (h.trace socket id hid)
  have hmem : socket ∈ l := (husers.2 socket).mpr hid
  refine ⟨l, husers, hmem, hstate.resolve_right fun hfreed => ?_⟩
  rw [hfreed.2] at hmem
  cases hmem

/-- No socket points to the next trace. -/
theorem TracesSound.users_next (h : TracesSound s) (ht : t.trace = s.trace) : t.Users s.allocated [] := by
  refine ⟨List.nodup_nil, fun k => iff_of_false List.not_mem_nil fun hk => ?_⟩
  rw [ht] at hk
  exact Nat.lt_irrefl _ (h.trace k _ hk)

/-- What `traceAlloc` leaves when it succeeds. -/
theorem traceAlloc_of_succeeds (s : TraceSystem) {bufferSize : ℕ} {a : TraceAnswers} (ha : a.Succeeds bufferSize) :
    ∃ c t, s.traceAlloc bufferSize a = (some s.allocated, t) ∧ t.trace = s.trace ∧
      t.config = Function.update s.config s.allocated c ∧ t.allocated = s.allocated + 1 ∧
      c.useCount = 0 ∧ c.opened = true ∧ c.closes = 0 ∧ c.frees = 0 := by
  obtain ⟨hmemory, hfile, hiob⟩ := ha
  unfold TraceSystem.traceAlloc
  rw [if_pos hmemory, if_pos hfile]
  by_cases hsize : bufferSize = 0
  · refine ⟨{ opened := true }, _, if_pos hsize, rfl, ?_, rfl, rfl, rfl, rfl, rfl⟩
    simp only [TraceSystem.setConfig, Function.update_self, Function.update_idem]
  · refine ⟨{ opened := true, buffered := true }, _,
      (if_neg hsize).trans (if_pos (hiob.resolve_left hsize)), rfl, ?_, rfl, rfl, rfl, rfl, rfl⟩
    simp only [TraceSystem.setConfig, Function.update_self, Function.update_idem]

/-- **When `traceAlloc` fails (proved)** it returns NULL, and it has closed and freed what it had allocated. -/
theorem traceAlloc_of_fails (h : TracesSound s) {bufferSize : ℕ} {a : TraceAnswers} (ha : ¬ a.Succeeds bufferSize) :
    (s.traceAlloc bufferSize a).1 = none ∧ TracesSound (s.traceAlloc bufferSize a).2 := by
  -- a trace that has been freed at once, and that no socket has seen
  have hfreed : ∀ {t : TraceSystem} {c : TraceConfig}, t.trace = s.trace →
      t.config = Function.update s.config s.allocated c → t.allocated = s.allocated + 1 → c.Freed → TracesSound t := by
    intro t c htrace hconfig hallocated hc
    have hsame : t.trace = Function.update s.trace 0 (s.trace 0) := htrace.trans (Function.update_eq_self ..).symm
    refine h.change hsame hconfig (by omega) (fun n hn hne => by omega) (fun _ _ => Iff.rfl) (fun n hn => ?_)
      ⟨[], h.users_next htrace, .inr ⟨hc, rfl⟩⟩
    exact lt_of_lt_of_le (h.trace 0 n hn) (by omega)
  unfold TraceSystem.traceAlloc
  by_cases hmemory : a.memory = true
  · by_cases hfile : a.file = true
    · have hiob : bufferSize ≠ 0 ∧ a.iob ≠ true := by
        refine not_or.mp fun hiob => ha ⟨hmemory, hfile, hiob⟩
      rw [if_pos hmemory, if_pos hfile, if_neg hiob.1, if_neg hiob.2]
      refine ⟨rfl, hfreed (c := { opened := true, closes := 1, frees := 1 }) rfl ?_ rfl ⟨rfl, rfl⟩⟩
      simp only [TraceSystem.fclose, TraceSystem.memFree, TraceSystem.setConfig, Function.update_self,
        Function.update_idem]
    · rw [if_pos hmemory, if_neg hfile]
      refine ⟨rfl, hfreed (c := { frees := 1 }) rfl ?_ rfl ⟨rfl, rfl⟩⟩
      simp only [TraceSystem.memFree, TraceSystem.setConfig, Function.update_self, Function.update_idem]
  · rw [if_neg hmemory]
    exact ⟨rfl, h⟩

/-- **A begin that fails in `traceAlloc` uses NULL (proved).** -/
theorem call_of_allocFails (h : TracesSound s) {c : TraceCall} (hc : c.AllocFails s) : s.call c = none := by
  cases c with
  | begin socket bufferSize tracedSocket a =>
    cases tracedSocket with
    | some traced => exact hc.elim
    | none =>
      obtain ⟨hnone, ha⟩ := hc
      have hfails := (traceAlloc_of_fails h ha).1
      show s.socketTraceBeginEx socket bufferSize none a = none
      unfold TraceSystem.socketTraceBeginEx
      rw [hnone]
      cases halloc : s.traceAlloc bufferSize a with
      | mk id t =>
        rw [halloc] at hfails
        cases hfails
        rfl
  | finish socket => exact hc.elim
  | release socket => exact hc.elim

/-- **A trace of its own (proved).** -/
theorem TracesSound.beginOwn (h : TracesSound s) (hnone : s.trace socket = none) {bufferSize : ℕ} {a : TraceAnswers}
    (ha : a.Succeeds bufferSize) : ∃ t, s.socketTraceBeginEx socket bufferSize none a = some (true, t) ∧
      TracesSound t ∧ t.trace socket ≠ none := by
  obtain ⟨c, u, halloc, htrace, hconfig, hallocated, hcount, hopened, hcloses, hfrees⟩ :=
    traceAlloc_of_succeeds s ha
  let c' : TraceConfig := { c with useCount := c.useCount + 1 }
  let t : TraceSystem := (u.setTrace socket (some s.allocated)).setConfig s.allocated
    fun c => { c with useCount := c.useCount + 1 }
  have ht : t.trace = Function.update s.trace socket (some s.allocated) := congrArg (Function.update · _ _) htrace
  have hc : t.config = Function.update s.config s.allocated c' := by
    show Function.update u.config s.allocated { u.config s.allocated with
      useCount := (u.config s.allocated).useCount + 1 } = _
    rw [hconfig, Function.update_self, Function.update_idem]
  refine ⟨t, ?_, ?_, ?_⟩
  · unfold TraceSystem.socketTraceBeginEx
    rw [hnone, halloc]
  · refine h.change ht hc (by show _ ≤ u.allocated; omega) (fun n hn hne => ?_) (fun n hne => ?_) (fun n hn => ?_)
      ⟨[socket], (h.users_next (t := s) rfl).cons ht hnone, .inl ⟨?_, Nat.one_pos, hopened, hcloses, hfrees⟩⟩
    · have hlt : n < u.allocated := hn
      omega
    · rw [hnone]
      exact iff_of_false (fun heq => by cases heq) fun heq => hne (Option.some.inj heq).symm
    · show n < u.allocated
      rw [← Option.some.inj hn]
      omega
    · show c.useCount + 1 = _
      rw [hcount]
      rfl
  · rw [ht, Function.update_self]
    exact Option.some_ne_none _

/-- **A trace of another socket (proved).** -/
theorem TracesSound.beginShared (h : TracesSound s) (hnone : s.trace socket = none) {traced : ℕ}
    (hid : s.trace traced = some id) (bufferSize : ℕ) (a : TraceAnswers) :
    ∃ t, s.socketTraceBeginEx socket bufferSize (some traced) a = some (true, t) ∧
      TracesSound t ∧ t.trace socket ≠ none := by
  obtain ⟨l, husers, _, hlive⟩ := h.live hid
  let t : TraceSystem := (s.setConfig id fun c => { c with useCount := c.useCount + 1 }).setTrace socket (some id)
  refine ⟨t, ?_, ?_, ?_⟩
  · simp only [TraceSystem.socketTraceBeginEx, hnone, hid]
    rfl
  · refine h.change (t := t) rfl rfl (Nat.le_refl _) (fun n hn _ => hn) (fun n hne => ?_) (fun n hn => ?_)
      ⟨socket :: l, husers.cons rfl hnone, .inl ⟨?_, Nat.succ_pos _, hlive.opened, hlive.closes, hlive.frees⟩⟩
    · rw [hnone]
      exact iff_of_false (fun heq => by cases heq) fun heq => hne (Option.some.inj heq).symm
    · rw [← Option.some.inj hn]
      exact h.trace traced id hid
    · show (s.config id).useCount + 1 = _
      rw [hlive.useCount]
      rfl
  · show Function.update s.trace socket (some id) socket ≠ none
    rw [Function.update_self]
    exact Option.some_ne_none _

/-- What `socketTraceEnd` leaves: the last socket closes the file and frees the trace. -/
theorem socketTraceEnd_of_trace (hid : s.trace socket = some id) :
    (s.socketTraceEnd socket).trace = Function.update s.trace socket none ∧
      (s.socketTraceEnd socket).allocated = s.allocated ∧
      (s.socketTraceEnd socket).config = Function.update s.config id
        (if (s.config id).useCount - 1 < 1 then
          { s.config id with
            useCount := (s.config id).useCount - 1
            closes := (s.config id).closes + 1
            frees := (s.config id).frees + 1 }
        else { s.config id with useCount := (s.config id).useCount - 1 }) := by
  unfold TraceSystem.socketTraceEnd
  rw [hid]
  simp only [TraceSystem.setConfig, Function.update_self]
  split
  · simp only [TraceSystem.traceFree, hid, TraceSystem.setTrace, TraceSystem.memFree, TraceSystem.fclose,
      TraceSystem.setConfig, Function.update_self, Function.update_idem, and_self]
  · simp only [TraceSystem.setTrace, and_self]

/-- **`socketTraceEnd` (proved).** -/
theorem TracesSound.finish (h : TracesSound s) (socket : ℕ) :
    TracesSound (s.socketTraceEnd socket) ∧ (s.socketTraceEnd socket).trace socket = none := by
  cases hid : s.trace socket with
  | none =>
    have hsame : s.socketTraceEnd socket = s := by
      unfold TraceSystem.socketTraceEnd
      rw [hid]
    rw [hsame]
    exact ⟨h, hid⟩
  | some id =>
    obtain ⟨htrace, hallocated, hconfig⟩ := socketTraceEnd_of_trace hid
    have hlt := h.trace socket id hid
    obtain ⟨l, husers, hmem, hlive⟩ := h.live hid
    have hlength : (l.erase socket).length = l.length - 1 := List.length_erase_of_mem hmem
    have hused := hlive.used
    refine ⟨?_, by rw [htrace, Function.update_self]⟩
    refine h.change htrace hconfig (Nat.le_of_eq hallocated.symm) (fun n hn _ => by omega) (fun n hne => ?_)
      (fun n hn => by cases hn) ⟨l.erase socket, husers.erase htrace, ?_⟩
    · rw [hid]
      exact iff_of_false (fun heq => hne (Option.some.inj heq).symm) fun heq => by cases heq
    · rw [hlive.useCount]
      split
      next hlast =>
        -- the last socket
        refine .inr ⟨⟨?_, ?_⟩, List.eq_nil_of_length_eq_zero (by omega)⟩
        · show (s.config id).closes + 1 = if (s.config id).opened = true then 1 else 0
          rw [hlive.closes, hlive.opened]
          rfl
        · show (s.config id).frees + 1 = 1
          rw [hlive.frees]
      next hmore =>
        refine .inl ⟨?_, ?_, hlive.opened, hlive.closes, hlive.frees⟩
        · show (l.length : ℤ) - 1 = _
          omega
        · omega

/-- **A call that does not fail in `traceAlloc` (proved)** keeps the traces sound, and returns what it is to return. -/
theorem call_sound (h : TracesSound s) {c : TraceCall} (hc : ¬ c.AllocFails s) :
    ∃ r t, s.call c = some (r, t) ∧ c.Returns s r t ∧ TracesSound t := by
  cases c with
  | begin socket bufferSize tracedSocket a =>
    have hbegun : ∀ {t : TraceSystem}, s.trace socket = none → t.trace socket ≠ none →
        (TraceCall.begin socket bufferSize tracedSocket a).Returns s true t :=
      fun hnone hsome => ⟨hnone, hsome⟩
    have hrefused : (TraceCall.begin socket bufferSize tracedSocket a).Returns s false s :=
      show s.trace socket = s.trace socket from rfl
    cases hsocket : s.trace socket with
    | some id =>
      refine ⟨false, s, ?_, hrefused, h⟩
      show s.socketTraceBeginEx socket bufferSize tracedSocket a = _
      unfold TraceSystem.socketTraceBeginEx
      rw [hsocket]
    | none =>
      cases tracedSocket with
      | none =>
        have ha : a.Succeeds bufferSize := by
          by_contra ha
          exact hc ⟨hsocket, ha⟩
        obtain ⟨t, hcall, ht, hsome⟩ := h.beginOwn hsocket ha
        exact ⟨true, t, hcall, hbegun hsocket hsome, ht⟩
      | some traced =>
        cases htraced : s.trace traced with
        | none =>
          refine ⟨false, s, ?_, hrefused, h⟩
          simp only [TraceSystem.call, TraceSystem.socketTraceBeginEx, hsocket, htraced]
        | some id =>
          obtain ⟨t, hcall, ht, hsome⟩ := h.beginShared hsocket htraced bufferSize a
          exact ⟨true, t, hcall, hbegun hsocket hsome, ht⟩
  | finish socket => exact ⟨true, _, rfl, (h.finish socket).2, (h.finish socket).1⟩
  | release socket => exact ⟨true, _, rfl, (h.finish socket).2, (h.finish socket).1⟩

end Calls

/-! ### A run -/

theorem tracesSound_start : TracesSound {} where
  config id hid := absurd hid (Nat.not_lt_zero id)
  trace _ _ h := by cases h

/-- Calls from a sound state. -/
theorem TracesSound.run_iff (calls : List TraceCall) : ∀ {s : TraceSystem}, TracesSound s →
    (TracesSoundIn s calls ↔ NeverFails s calls) := by
  induction calls with
  | nil => exact fun h => iff_of_true h trivial
  | cons c cs ih =>
    intro s h
    by_cases hc : c.AllocFails s
    · refine iff_of_false ?_ fun hnever => hnever.1 hc
      rintro ⟨_, r, t, hcall, _⟩
      rw [call_of_allocFails h hc] at hcall
      cases hcall
    · obtain ⟨r, t, hcall, hreturns, ht⟩ := call_sound h hc
      constructor
      · rintro ⟨_, r', t', hcall', _, hrest⟩
        rw [hcall] at hcall'
        cases hcall'
        refine ⟨hc, fun r' t' hcall' => ?_⟩
        rw [hcall] at hcall'
        cases hcall'
        exact (ih ht).mp hrest
      · rintro ⟨_, hnever⟩
        exact ⟨h, r, t, hcall, hreturns, (ih ht).mpr (hnever r t hcall)⟩

/-- **The traces are sound in a run (proved)** exactly when no begin of it fails in `traceAlloc`. -/
theorem tracesSoundIn_iff (calls : List TraceCall) : TracesSoundIn {} calls ↔ NeverFails {} calls :=
  tracesSound_start.run_iff calls

/-- The file of a trace cannot be opened. -/
theorem begin_uses_null : ¬ TracesSoundIn {} [.begin 0 0 none ⟨true, false, true⟩] := by
  rintro ⟨_, r, t, hcall, _⟩
  cases hcall

end Connio
