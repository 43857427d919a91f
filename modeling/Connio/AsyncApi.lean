import Connio.EngineInv
import Connio.LockFrame
import Connio.ReadApi

/-!
# The asynchronous calls of the consumer

The functions of `connio.c` that queue events, as programs over the actions of the system: they allocate an
event, hand it to `EventEnqueue`, and free it when that returns FALSE.

* `queueEvent` — what all of them share; `queueUnlessShuttingDown` — with the test of the handle;
* `connAReadToCondition` ... `connASSLDisconnectEx` — the functions under their source names;
* `AsyncCall`, `AsyncCall.run` — any of them; `AsyncCall.run_reachable` — **PROVED**: a call is a run of the
  system;
* `Undisturbed` — the transaction, the queue, the active events, the state and the socket are as before;
* `run_undisturbed` — **PROVED**: a call that may not queue leaves the conn undisturbed, unless it is
  `ConnAWriteFromBuffer` with a large buffer.

What other threads do between the actions of one call is left out.
-/

namespace Connio

open Connio.Lib

/-! ### Handing an event over -/

/-- The `errno` that `queueingPermitted` sets; `0` where it sets none. -/
def queueingErrno (c : Conn) : Errno :=
  match c.state with
  | .idle | .asynchronousClient => 0
  | .cached | .free => Errno.einval
  | _ => Errno.ebusy

/-- What the allocator answers to a function that queues an event, and to `EventEnqueue` inside. -/
structure QueueAllocs where
  event : Option EventId
  inserted : Allocs
  deriving DecidableEq, Repr

/-- What a call is given besides its own arguments: whether the checks of these passed, and its place in the
consumer's code. -/
structure CallArgs where
  valid : Bool
  source : CodeSource
  allocs : QueueAllocs
  deriving DecidableEq, Repr

namespace AsyncSystem

variable (s : AsyncSystem)

/-- `EventEnqueueFailure` -/
def eventEnqueueFailure (errno : Errno) (source : CodeSource) : Option AsyncSystem :=
  asyncStep s (.enqueueFailure errno source)

/-- `EventEnqueue` for an event that has been allocated, and `ConnEventFree` when it returns FALSE. -/
def enqueueOrFree (e : EventId) (ce : ConnEvent) (allocs : Allocs) : Option (Bool × AsyncSystem) := do
  let s₁ ← asyncStep s (.alloc e ce)
  let s₂ ← asyncStep s₁ (.enqueue (some e) allocs ce.source)
  if queueingPermitted s₁.conn then return (true, s₂)
  else return (false, ← asyncStep s₂ (.free e))

/-- Allocate an event, queue it, and report that this failed. -/
def queueEvent (ce : ConnEvent) (allocs : QueueAllocs) : Option AsyncSystem := do
  match allocs.event with
  | some e =>
    match ← s.enqueueOrFree e ce allocs.inserted with
    | (true, s) => return s
    | (false, s) => s.eventEnqueueFailure (queueingErrno s.conn) ce.source
  | none => s.eventEnqueueFailure Errno.enomem ce.source

/-- The functions that test the handle after their arguments. -/
def queueUnlessShuttingDown (args : CallArgs) (ce : ConnEvent) : Option AsyncSystem :=
  if args.valid then
    if s.conn.shuttingDown then s.eventEnqueueFailure Errno.econnhandleshutdown args.source
    else s.queueEvent ce args.allocs
  else some s

/-! ### Connect-class calls -/

def connADisconnectEx (args : CallArgs) : Option AsyncSystem :=
  if args.valid then s.queueEvent { type := .disconnect, source := args.source } args.allocs else some s

/-- The handle is tested with the arguments here. -/
def connASSLConnectEx (tls : Bool) (args : CallArgs) : Option AsyncSystem :=
  if args.valid ∧ s.conn.shuttingDown = false then
    s.queueEvent { type := if tls then .tlsConnect else .sslConnect, source := args.source } args.allocs
  else some s

def connASSLAcceptEx (tls : Bool) (args : CallArgs) : Option AsyncSystem :=
  s.queueUnlessShuttingDown args
    { type := if tls then .tlsAccept else .sslAccept, source := args.source }

def connASSLDisconnectEx (args : CallArgs) : Option AsyncSystem :=
  if args.valid then s.queueEvent { type := .sslDisconnect, source := args.source } args.allocs
  else some s

/-! ### Reads -/

/-- The `errno` of a read that is not accepted. -/
def readErrno (c : ReadCall) : Errno := if c.errno = 0 then Errno.einval else c.errno

def connAReadToCondition (c : ReadCall) (args : CallArgs) : Option AsyncSystem :=
  if args.valid ∧ c.accepted = false then s.eventEnqueueFailure (readErrno c) args.source
  else
    s.queueUnlessShuttingDown args
      { type := c.type, source := args.source, partialOk := c.dataMode.partialOk
        bufferStart := c.dataMode.copy, ioBuffer := true }

/-- `ConnAReadCRLF` and `ConnAGetS` submit the queue, too. -/
def connAReadAndSubmit (c : ReadCall) (args : CallArgs) (qFailure : Bool) (client : ℕ) :
    Option AsyncSystem := do
  asyncStep (← s.connAReadToCondition c args) (.submit qFailure client args.source)

def connAReadToCBEx (args : CallArgs) : Option AsyncSystem :=
  s.queueUnlessShuttingDown args { type := .readToCb, source := args.source, ioBuffer := true }

def connAReadToConnEx (args : CallArgs) : Option AsyncSystem :=
  s.queueUnlessShuttingDown args { type := .readToConn, source := args.source, ioBuffer := true }

/-! ### Writes -/

/-- `connAFlushEx` -/
def connAFlush (source : CodeSource) (allocs : QueueAllocs) : Option AsyncSystem :=
  s.queueEvent { type := .flush, source := source, ioBuffer := true } allocs

/-- The send buffer is taken if it holds data, and flushed. -/
def flushBuffered (source : CodeSource) (allocs : QueueAllocs) : Option AsyncSystem := do
  let s' ← asyncStep s (.sendBuffer false none)
  if (bufferedSendDataGet s.conn).1 then s'.connAFlush source allocs else return s'

def connAFlushEx (args : CallArgs) : Option AsyncSystem :=
  if args.valid then s.flushBuffered args.source args.allocs else some s

/-- `bufferedSendDataGet( conn, EMPTY_OK )`: the octets in the buffer; `memory` is what `IOBAlloc`
answers. -/
def bufferedSendDataTake (c : Conn) (memory : Bool) : Option ℕ :=
  match c.sendBuffer with
  | some used => some used
  | none => if memory then some 0 else none

/-- `bufferedSendDataKeep` -/
def bufferedSendDataKeep (used : ℕ) : Option AsyncSystem :=
  asyncStep s (.sendBuffer false (if 0 < used then some used else none))

/-- One round of the loop of `writeClientData`: what `IOBAlloc` answers, and the allocator to the flush. -/
structure WriteRound where
  memory : Bool
  flush : QueueAllocs
  deriving DecidableEq, Repr

/-- The loop of `writeClientData` for an asynchronous write; `remaining` octets are left.  The rounds end
with the list. -/
def writeClientDataLoop (source : CodeSource) : List WriteRound → ℕ → AsyncSystem → Option AsyncSystem
  | [], _, _ => none
  | round :: rounds, remaining, s =>
    match bufferedSendDataTake s.conn round.memory with
    | none => s.eventEnqueueFailure Errno.enomem source
    | some used =>
      if remaining < connIobSize - used then s.bufferedSendDataKeep (used + remaining)
      else do
        -- the buffer is full
        let s₁ ← asyncStep s (.sendBuffer false none)
        let s₂ ← s₁.connAFlush source round.flush
        if queueingErrno s₁.conn ≠ 0 then return s₂
        else writeClientDataLoop source rounds (remaining - (connIobSize - used)) s₂

/-- `writeClientData` for an asynchronous write -/
def writeClientData (length : Int) (rounds : List WriteRound) (source : CodeSource) :
    Option AsyncSystem := do
  let s ← asyncStep s (.sendBuffer true s.conn.sendBuffer)
  if 0 < length then writeClientDataLoop source rounds length.toNat s else return s

def connAWriteEx (length : Int) (rounds : List WriteRound) (args : CallArgs) : Option AsyncSystem :=
  if args.valid then s.writeClientData length rounds args.source else some s

/-- The abort at the end is unconditional. -/
def connAWriteFromBufferEx (length : Int) (rounds : List WriteRound) (flush : QueueAllocs)
    (args : CallArgs) : Option AsyncSystem :=
  if args.valid then
    if length < connIobSize then s.writeClientData length rounds args.source
    else do
      let s₁ ← s.flushBuffered args.source flush
      match args.allocs.event with
      | some e =>
        match ← s₁.enqueueOrFree e
          { type := .writeFromClientBuffer, source := args.source, bufferStart := true }
          args.allocs.inserted with
        | (true, s₂) => return s₂
        | (false, s₂) => asyncStep s₂ (.writeAbort args.source)
      | none => asyncStep s₁ (.writeAbort args.source)
  else some s

/-- The event takes over the send buffer; `memory` is what `IOBAlloc` answers.  Without a buffer the event
is freed before it was assigned. -/
def connAWriteFromCBEx (memory : Bool) (args : CallArgs) : Option AsyncSystem :=
  if args.valid then
    match args.allocs.event, bufferedSendDataTake s.conn memory with
    | some e, some _ => do
      let s₁ ← asyncStep s (.sendBuffer false none)
      match ← s₁.enqueueOrFree e
        { type := .writeFromCb, source := args.source, ioBuffer := true } args.allocs.inserted with
      | (true, s₂) => return s₂
      | (false, s₂) => s₂.eventEnqueueFailure (queueingErrno s₂.conn) args.source
    | some e, none => do
      let s₁ ← asyncStep s (.alloc e { type := .accept, source := args.source })
      let s₂ ← asyncStep s₁ (.free e)
      s₂.eventEnqueueFailure Errno.enomem args.source
    | none, _ => s.eventEnqueueFailure Errno.enomem args.source
  else some s

end AsyncSystem

/-! ### The calls -/

inductive AsyncCall where
  /-- `ConnARead`, ..., `ConnAEatCount`, `ConnAPeek`, ..., `ConnATestRead`, ... -/
  | read (c : ReadCall)
  /-- `ConnAReadCRLF`, `ConnAGetS` -/
  | readAndSubmit (c : ReadCall) (qFailure : Bool) (client : ℕ)
  | readToCB
  | readToConn
  | flush
  | write (length : Int) (rounds : List AsyncSystem.WriteRound)
  | writeFromBuffer (length : Int) (rounds : List AsyncSystem.WriteRound) (buffered : QueueAllocs)
  | writeFromCB (memory : Bool)
  | disconnect
  | sslConnect (tls : Bool)
  | sslAccept (tls : Bool)
  | sslDisconnect
  deriving DecidableEq, Repr

def AsyncCall.run (s : AsyncSystem) (args : CallArgs) : AsyncCall → Option AsyncSystem
  | .read c => s.connAReadToCondition c args
  | .readAndSubmit c qFailure client => s.connAReadAndSubmit c args qFailure client
  | .readToCB => s.connAReadToCBEx args
  | .readToConn => s.connAReadToConnEx args
  | .flush => s.connAFlushEx args
  | .write length rounds => s.connAWriteEx length rounds args
  | .writeFromBuffer length rounds buffered => s.connAWriteFromBufferEx length rounds buffered args
  | .writeFromCB memory => s.connAWriteFromCBEx memory args
  | .disconnect => s.connADisconnectEx args
  | .sslConnect tls => s.connASSLConnectEx tls args
  | .sslAccept tls => s.connASSLAcceptEx tls args
  | .sslDisconnect => s.connASSLDisconnectEx args

/-- `ConnAWriteFromBuffer` with valid arguments and a buffer that does not fit into an IOBuffer. -/
def AsyncCall.HasLargeBuffer (args : CallArgs) : AsyncCall → Prop
  | .writeFromBuffer length _ _ => args.valid = true ∧ connIobSize ≤ length
  | _ => False

/-! ### A call is a run of the system -/

section Runs

variable {s s' : AsyncSystem} {e : EventId} {ce : ConnEvent} {args : CallArgs}

theorem step_reachable {a : AsyncAction} (h : asyncStep s a = some s') :
    Reachable (enabled asyncStep) s s' := .single trivial h

theorem valid_reachable {p : Prop} [Decidable p] {x : Option AsyncSystem}
    (hx : x = some s' → Reachable (enabled asyncStep) s s') (h : (if p then x else some s) = some s') :
    Reachable (enabled asyncStep) s s' := by
  split at h
  · exact hx h
  · cases h
    exact .init

theorem enqueueOrFree_reachable {allocs : Allocs} {ok : Bool}
    (h : s.enqueueOrFree e ce allocs = some (ok, s')) : Reachable (enabled asyncStep) s s' := by
  unfold AsyncSystem.enqueueOrFree at h
  obtain ⟨s₁, h₁, h⟩ := Option.bind_eq_some_iff.mp h
  obtain ⟨s₂, h₂, h⟩ := Option.bind_eq_some_iff.mp h
  have hr := (step_reachable h₁).trans (step_reachable h₂)
  split at h
  · cases h
    exact hr
  · obtain ⟨s₃, h₃, h⟩ := Option.bind_eq_some_iff.mp h
    cases h
    exact hr.trans (step_reachable h₃)

theorem queueEvent_reachable {allocs : QueueAllocs} (h : s.queueEvent ce allocs = some s') :
    Reachable (enabled asyncStep) s s' := by
  unfold AsyncSystem.queueEvent at h
  split at h
  · obtain ⟨⟨ok, s₁⟩, h₁, h⟩ := Option.bind_eq_some_iff.mp h
    have hr := enqueueOrFree_reachable h₁
    cases ok with
    | true =>
      cases h
      exact hr
    | false => exact hr.trans (step_reachable h)
  · exact step_reachable h

theorem queueUnlessShuttingDown_reachable (h : s.queueUnlessShuttingDown args ce = some s') :
    Reachable (enabled asyncStep) s s' := by
  unfold AsyncSystem.queueUnlessShuttingDown at h
  refine valid_reachable (fun h => ?_) h
  split at h
  · exact step_reachable h
  · exact queueEvent_reachable h

theorem connAReadToCondition_reachable {c : ReadCall} (h : s.connAReadToCondition c args = some s') :
    Reachable (enabled asyncStep) s s' := by
  unfold AsyncSystem.connAReadToCondition at h
  split at h
  · exact step_reachable h
  · exact queueUnlessShuttingDown_reachable h

theorem flushBuffered_reachable {source : CodeSource} {allocs : QueueAllocs}
    (h : s.flushBuffered source allocs = some s') : Reachable (enabled asyncStep) s s' := by
  unfold AsyncSystem.flushBuffered at h
  obtain ⟨s₁, h₁, h⟩ := Option.bind_eq_some_iff.mp h
  split at h
  · exact (step_reachable h₁).trans (queueEvent_reachable h)
  · cases h
    exact step_reachable h₁

theorem writeClientDataLoop_reachable {source : CodeSource} {s' : AsyncSystem} :
    ∀ {rounds : List AsyncSystem.WriteRound} {remaining : ℕ} {s : AsyncSystem},
      AsyncSystem.writeClientDataLoop source rounds remaining s = some s' →
        Reachable (enabled asyncStep) s s'
  | [], _, _, h => by cases h
  | round :: rounds, remaining, s, h => by
    unfold AsyncSystem.writeClientDataLoop at h
    split at h
    · exact step_reachable h
    · split at h
      · exact step_reachable h
      · obtain ⟨s₁, h₁, h⟩ := Option.bind_eq_some_iff.mp h
        obtain ⟨s₂, h₂, h⟩ := Option.bind_eq_some_iff.mp h
        have hr := (step_reachable h₁).trans (queueEvent_reachable h₂)
        split at h
        · cases h
          exact hr
        · exact hr.trans (writeClientDataLoop_reachable h)

theorem writeClientData_reachable {length : Int} {rounds : List AsyncSystem.WriteRound}
    {source : CodeSource} (h : s.writeClientData length rounds source = some s') :
    Reachable (enabled asyncStep) s s' := by
  unfold AsyncSystem.writeClientData at h
  obtain ⟨s₁, h₁, h⟩ := Option.bind_eq_some_iff.mp h
  split at h
  · exact (step_reachable h₁).trans (writeClientDataLoop_reachable h)
  · cases h
    exact step_reachable h₁

theorem connAWriteFromBufferEx_reachable {length : Int} {rounds : List AsyncSystem.WriteRound}
    {buffered : QueueAllocs} (h : s.connAWriteFromBufferEx length rounds buffered args = some s') :
    Reachable (enabled asyncStep) s s' := by
  unfold AsyncSystem.connAWriteFromBufferEx at h
  refine valid_reachable (fun h => ?_) h
  split at h
  · exact writeClientData_reachable h
  · obtain ⟨s₁, h₁, h⟩ := Option.bind_eq_some_iff.mp h
    have hr := flushBuffered_reachable h₁
    split at h
    · obtain ⟨⟨ok, s₂⟩, h₂, h⟩ := Option.bind_eq_some_iff.mp h
      have hr₂ := hr.trans (enqueueOrFree_reachable h₂)
      cases ok with
      | true =>
        cases h
        exact hr₂
      | false => exact hr₂.trans (step_reachable h)
    · exact hr.trans (step_reachable h)

theorem connAWriteFromCBEx_reachable {memory : Bool} (h : s.connAWriteFromCBEx memory args = some s') :
    Reachable (enabled asyncStep) s s' := by
  unfold AsyncSystem.connAWriteFromCBEx at h
  refine valid_reachable (fun h => ?_) h
  split at h
  · obtain ⟨s₁, h₁, h⟩ := Option.bind_eq_some_iff.mp h
    obtain ⟨⟨ok, s₂⟩, h₂, h⟩ := Option.bind_eq_some_iff.mp h
    have hr := (step_reachable h₁).trans (enqueueOrFree_reachable h₂)
    cases ok with
    | true =>
      cases h
      exact hr
    | false => exact hr.trans (step_reachable h)
  · obtain ⟨s₁, h₁, h⟩ := Option.bind_eq_some_iff.mp h
    obtain ⟨s₂, h₂, h⟩ := Option.bind_eq_some_iff.mp h
    exact ((step_reachable h₁).trans (step_reachable h₂)).trans (step_reachable h)
  · exact step_reachable h

/-- **A call is a run of the system (proved).** -/
theorem AsyncCall.run_reachable {call : AsyncCall} (h : call.run s args = some s') :
    Reachable (enabled asyncStep) s s' := by
  cases call with
  | read c => exact connAReadToCondition_reachable h
  | readAndSubmit c qFailure client =>
    obtain ⟨s₁, h₁, h₂⟩ := Option.bind_eq_some_iff.mp h
    exact (connAReadToCondition_reachable h₁).trans (step_reachable h₂)
  | readToCB => exact queueUnlessShuttingDown_reachable h
  | readToConn => exact queueUnlessShuttingDown_reachable h
  | flush => exact valid_reachable flushBuffered_reachable h
  | write length rounds => exact valid_reachable writeClientData_reachable h
  | writeFromBuffer length rounds buffered => exact connAWriteFromBufferEx_reachable h
  | writeFromCB memory => exact connAWriteFromCBEx_reachable h
  | disconnect => exact valid_reachable queueEvent_reachable h
  | sslConnect tls => exact valid_reachable queueEvent_reachable h
  | sslAccept tls => exact queueUnlessShuttingDown_reachable h
  | sslDisconnect => exact valid_reachable queueEvent_reachable h

end Runs

/-! ### Refused calls -/

/-- The event is active or queued. -/
def Conn.InUse (c : Conn) (e : EventId) : Prop :=
  (∃ k, c.activeEvent.get k = some e) ∨ e ∈ c.queued

/-- **The conn is undisturbed:** its transaction with queue and problem, its active events and their errors,
its state and its socket are as before. -/
structure Undisturbed (c c' : Conn) : Prop where
  transaction : c'.transaction = c.transaction
  activeEvent : c'.activeEvent = c.activeEvent
  events : ∀ e, c.InUse e → c'.events e = c.events e
  state : c'.state = c.state
  sp : c'.sp = c.sp

/-- The conn is in a state in which nothing may be queued, and the events in use have been allocated. -/
structure Refusing (c : Conn) : Prop where
  refused : queueingPermitted c = false
  inUse : ∀ e, c.InUse e → e ∈ allocated c.log

/-- An action that leaves a refusing conn undisturbed. -/
structure Refused (s s' : AsyncSystem) : Prop where
  undisturbed : Undisturbed s.conn s'.conn
  log : ∃ l, s'.conn.log = l ++ s.conn.log

section Refused

variable {c c' c'' : Conn} {s s' s'' : AsyncSystem} {e : EventId} {ce : ConnEvent} {args : CallArgs}

theorem Undisturbed.inUse (h : Undisturbed c c') : c'.InUse e ↔ c.InUse e := by
  unfold Conn.InUse
  rw [h.activeEvent, Conn.queued, h.transaction]
  rfl

namespace Refused

theorem refl (s : AsyncSystem) : Refused s s := ⟨⟨rfl, rfl, fun _ _ => rfl, rfl, rfl⟩, [], rfl⟩

theorem trans (h : Refused s s') (h' : Refused s' s'') : Refused s s'' := by
  obtain ⟨l, hl⟩ := h.log
  obtain ⟨l', hl'⟩ := h'.log
  refine ⟨⟨?_, ?_, fun e he => ?_, ?_, ?_⟩, l' ++ l, ?_⟩
  · exact h'.undisturbed.transaction.trans h.undisturbed.transaction
  · exact h'.undisturbed.activeEvent.trans h.undisturbed.activeEvent
  · exact (h'.undisturbed.events e (h.undisturbed.inUse.mpr he)).trans (h.undisturbed.events e he)
  · exact h'.undisturbed.state.trans h.undisturbed.state
  · exact h'.undisturbed.sp.trans h.undisturbed.sp
  · rw [hl', hl, List.append_assoc]

/-- The conn still refuses. -/
theorem refusing (h : Refused s s') (hs : Refusing s.conn) : Refusing s'.conn := by
  refine ⟨?_, fun e he => ?_⟩
  · have hstate := hs.refused
    unfold queueingPermitted at hstate ⊢
    rw [h.undisturbed.state]
    exact hstate
  · obtain ⟨l, hl⟩ := h.log
    rw [hl, allocated, List.filterMap_append]
    exact List.mem_append_right _ (hs.inUse e (h.undisturbed.inUse.mp he))

end Refused

/-! ### The actions of a refused call -/

/-- An event that is not in use is written. -/
theorem setEvent_undisturbed (he : ¬ c.InUse e) : Undisturbed c (c.setEvent e ce) :=
  ⟨rfl, rfl, fun _ he' => Function.update_of_ne (fun heq => he (by rwa [heq] at he')) _ _, rfl, rfl⟩

theorem note_undisturbed (h : Undisturbed c c') (x : LogEntry) : Undisturbed c (c'.note x) :=
  ⟨h.transaction, h.activeEvent, h.events, h.state, h.sp⟩

/-- An event that is not in use is freed. -/
theorem connEventFree_undisturbed (he : ¬ c.InUse e) :
    Undisturbed c (connEventFree c e) ∧ ∃ l, (connEventFree c e).log = l ++ c.log := by
  have hrefl : Undisturbed c c := ⟨rfl, rfl, fun _ _ => rfl, rfl, rfl⟩
  unfold connEventFree connEventFreeResources
  simp only []
  split
  · exact ⟨note_undisturbed (setEvent_undisturbed he) _, [_], rfl⟩
  split
  · split
    · exact ⟨note_undisturbed (note_undisturbed (setEvent_undisturbed he) _) _, [_, _], rfl⟩
    · exact ⟨note_undisturbed hrefl _, [_], rfl⟩
  split
  · split
    · exact ⟨note_undisturbed (note_undisturbed (setEvent_undisturbed he) _) _, [_, _], rfl⟩
    · exact ⟨note_undisturbed hrefl _, [_], rfl⟩
  · exact ⟨note_undisturbed hrefl _, [_], rfl⟩

theorem alloc_refused (hs : Refusing s.conn) (h : asyncStep s (.alloc e ce) = some s') :
    Refused s s' ∧ ¬ s.conn.InUse e := by
  simp only [asyncStep] at h
  split at h <;> cases h
  next hnew =>
    have he : ¬ s.conn.InUse e := fun he => hnew.1 (hs.inUse e he)
    exact ⟨⟨note_undisturbed (setEvent_undisturbed he) _, [_], rfl⟩, he⟩

theorem eventEnqueue_refused (hs : Refusing c) (connEvent : Option EventId) (allocs : Allocs)
    (source : CodeSource) : eventEnqueue c connEvent allocs source = none := by
  rw [eventEnqueue, hs.refused]
  rfl

theorem enqueue_refused (hs : Refusing s.conn) {allocs : Allocs} {source : CodeSource}
    (h : asyncStep s (.enqueue (some e) allocs source) = some s') : Refused s s' := by
  simp only [asyncStep] at h
  split at h <;> cases h
  unfold AsyncSystem.enqueue
  rw [eventEnqueue_refused hs]
  exact ⟨note_undisturbed ⟨rfl, rfl, fun _ _ => rfl, rfl, rfl⟩ _, [_], rfl⟩

theorem free_refused (he : ¬ s.conn.InUse e) (h : asyncStep s (.free e) = some s') : Refused s s' := by
  obtain ⟨hfree, hlog⟩ := connEventFree_undisturbed he
  simp only [asyncStep] at h
  split at h
  · cases h
    exact ⟨hfree, hlog⟩
  split at h <;> cases h
  exact ⟨hfree, hlog⟩

theorem enqueueFailure_refused (hs : Refusing s.conn) {errno : Errno} {source : CodeSource}
    (h : s.eventEnqueueFailure errno source = some s') : Refused s s' := by
  simp only [AsyncSystem.eventEnqueueFailure, asyncStep, eventEnqueueFailure, hs.refused] at h
  cases h
  exact .refl s

theorem sendBuffer_refused (hs : Refusing s.conn) {async : Bool} {used : Option ℕ}
    (h : asyncStep s (.sendBuffer async used) = some s') : Refused s s' := by
  have hidle : s.conn.state ≠ .idle := by
    intro hidle
    have hrefused := hs.refused
    rw [queueingPermitted, hidle] at hrefused
    cases hrefused
  have hkeeps : ¬ (async = true ∧ s.conn.state = .idle) := fun h => hidle h.2
  simp only [asyncStep, writeClientData, if_neg hkeeps] at h
  cases h
  exact ⟨⟨rfl, rfl, fun _ _ => rfl, rfl, rfl⟩, [], rfl⟩

theorem submit_refused (hs : Refusing s.conn) {qFailure : Bool} {client : ℕ} {source : CodeSource}
    (h : asyncStep s (.submit qFailure client source) = some s') : Refused s s' := by
  have hproblem : submitProblem s.conn ≠ 0 ∧ submitProblem s.conn ≠ Errno.eperm := by
    have hrefused := hs.refused
    unfold queueingPermitted at hrefused
    unfold submitProblem
    split at hrefused
    · cases hrefused
    · cases hrefused
    next hidle hclient =>
      split
      next heq => exact absurd heq hclient
      next heq => exact absurd heq hidle
      all_goals exact ⟨by decide, by decide⟩
  simp only [asyncStep, eventsSubmit, if_pos hproblem] at h
  cases h
  exact .refl s

/-! ### What the calls share -/

/-- A call whose arguments are not valid does nothing. -/
theorem valid_refused {p : Prop} [Decidable p] {x : Option AsyncSystem}
    (hx : x = some s' → Refused s s') (h : (if p then x else some s) = some s') : Refused s s' := by
  split at h
  · exact hx h
  · cases h
    exact .refl s

theorem enqueueOrFree_refused (hs : Refusing s.conn) {allocs : Allocs} {ok : Bool}
    (h : s.enqueueOrFree e ce allocs = some (ok, s')) : Refused s s' ∧ ok = false := by
  simp only [AsyncSystem.enqueueOrFree, Option.bind_eq_bind, Option.bind_eq_some_iff] at h
  obtain ⟨s₁, h₁, s₂, h₂, h⟩ := h
  obtain ⟨hr₁, he⟩ := alloc_refused hs h₁
  have hs₁ := hr₁.refusing hs
  have hr₂ := enqueue_refused hs₁ h₂
  rw [hs₁.refused] at h
  simp only [Bool.false_eq_true, if_false, Option.bind_eq_some_iff, Option.pure_def, Option.some.injEq,
    Prod.mk.injEq] at h
  obtain ⟨s₃, h₃, rfl, rfl⟩ := h
  have he₂ : ¬ s₂.conn.InUse e := fun h =>
    he (hr₁.undisturbed.inUse.mp (hr₂.undisturbed.inUse.mp h))
  exact ⟨(hr₁.trans hr₂).trans (free_refused he₂ h₃), rfl⟩

theorem queueEvent_refused (hs : Refusing s.conn) {allocs : QueueAllocs}
    (h : s.queueEvent ce allocs = some s') : Refused s s' := by
  unfold AsyncSystem.queueEvent at h
  split at h
  next e _ =>
    obtain ⟨⟨ok, s₁⟩, h₁, h₂⟩ := Option.bind_eq_some_iff.mp h
    obtain ⟨hr₁, rfl⟩ := enqueueOrFree_refused hs h₁
    exact hr₁.trans (enqueueFailure_refused (hr₁.refusing hs) h₂)
  · exact enqueueFailure_refused hs h

theorem queueUnlessShuttingDown_refused (hs : Refusing s.conn)
    (h : s.queueUnlessShuttingDown args ce = some s') : Refused s s' := by
  unfold AsyncSystem.queueUnlessShuttingDown at h
  refine valid_refused (fun h => ?_) h
  split at h
  · exact enqueueFailure_refused hs h
  · exact queueEvent_refused hs h

theorem connAReadToCondition_refused (hs : Refusing s.conn) {c : ReadCall}
    (h : s.connAReadToCondition c args = some s') : Refused s s' := by
  unfold AsyncSystem.connAReadToCondition at h
  split at h
  · exact enqueueFailure_refused hs h
  · exact queueUnlessShuttingDown_refused hs h

theorem flushBuffered_refused (hs : Refusing s.conn) {source : CodeSource} {allocs : QueueAllocs}
    (h : s.flushBuffered source allocs = some s') : Refused s s' := by
  unfold AsyncSystem.flushBuffered at h
  obtain ⟨s₁, h₁, h₂⟩ := Option.bind_eq_some_iff.mp h
  have hr₁ := sendBuffer_refused hs h₁
  split at h₂
  · exact hr₁.trans (queueEvent_refused (hr₁.refusing hs) h₂)
  · cases h₂
    exact hr₁

/-- A write that is refused stops with the first buffer it fills. -/
theorem writeClientData_refused (hs : Refusing s.conn) {length : Int}
    {rounds : List AsyncSystem.WriteRound} {source : CodeSource}
    (h : s.writeClientData length rounds source = some s') : Refused s s' := by
  unfold AsyncSystem.writeClientData at h
  obtain ⟨s₁, h₁, h⟩ := Option.bind_eq_some_iff.mp h
  have hr₁ := sendBuffer_refused hs h₁
  have hs₁ := hr₁.refusing hs
  refine hr₁.trans ?_
  split at h
  next hpos =>
    cases rounds with
    | nil => cases h
    | cons round rounds =>
      unfold AsyncSystem.writeClientDataLoop at h
      split at h
      · exact enqueueFailure_refused hs₁ h
      next used _ =>
        split at h
        · exact sendBuffer_refused hs₁ h
        · obtain ⟨s₂, h₂, h⟩ := Option.bind_eq_some_iff.mp h
          obtain ⟨s₃, h₃, h⟩ := Option.bind_eq_some_iff.mp h
          have hr₂ := sendBuffer_refused hs₁ h₂
          have hs₂ := hr₂.refusing hs₁
          have herrno : queueingErrno s₂.conn ≠ 0 := by
            have hrefused := hs₂.refused
            unfold queueingPermitted at hrefused
            unfold queueingErrno
            split at hrefused
            · cases hrefused
            · cases hrefused
            next hidle hclient =>
              split
              next heq => exact absurd heq hidle
              next heq => exact absurd heq hclient
              all_goals decide
          rw [if_pos herrno] at h
          cases h
          exact hr₂.trans (queueEvent_refused hs₂ h₃)
  · cases h
    exact .refl _

theorem connAWriteFromCBEx_refused (hs : Refusing s.conn) {memory : Bool}
    (h : s.connAWriteFromCBEx memory args = some s') : Refused s s' := by
  unfold AsyncSystem.connAWriteFromCBEx at h
  refine valid_refused (fun h => ?_) h
  split at h
  · obtain ⟨s₁, h₁, h⟩ := Option.bind_eq_some_iff.mp h
    obtain ⟨⟨ok, s₂⟩, h₂, h⟩ := Option.bind_eq_some_iff.mp h
    have hr₁ := sendBuffer_refused hs h₁
    obtain ⟨hr₂, rfl⟩ := enqueueOrFree_refused (hr₁.refusing hs) h₂
    have hr := hr₁.trans hr₂
    exact hr.trans (enqueueFailure_refused (hr.refusing hs) h)
  · obtain ⟨s₁, h₁, h⟩ := Option.bind_eq_some_iff.mp h
    obtain ⟨s₂, h₂, h⟩ := Option.bind_eq_some_iff.mp h
    obtain ⟨hr₁, he⟩ := alloc_refused hs h₁
    have hr := hr₁.trans (free_refused (fun h => he (hr₁.undisturbed.inUse.mp h)) h₂)
    exact hr.trans (enqueueFailure_refused (hr.refusing hs) h)
  · exact enqueueFailure_refused hs h

/-- The unconditional abort of `ConnAWriteFromBuffer` is the only thing it does to the conn. -/
theorem connAWriteFromBufferEx_refused (hs : Refusing s.conn) {length : Int}
    {rounds : List AsyncSystem.WriteRound} {buffered : QueueAllocs}
    (hlarge : args.valid = true ∧ connIobSize ≤ length)
    (h : s.connAWriteFromBufferEx length rounds buffered args = some s') :
    ∃ t, Refused s t ∧
      s'.conn = eventQueueAbort t.conn none ⟨.failed, Errno.enomem, args.source⟩ := by
  unfold AsyncSystem.connAWriteFromBufferEx at h
  rw [if_pos hlarge.1, if_neg (by omega)] at h
  obtain ⟨s₁, h₁, h⟩ := Option.bind_eq_some_iff.mp h
  have hr₁ := flushBuffered_refused hs h₁
  split at h
  · obtain ⟨⟨ok, s₂⟩, h₂, h⟩ := Option.bind_eq_some_iff.mp h
    obtain ⟨hr₂, rfl⟩ := enqueueOrFree_refused (hr₁.refusing hs) h₂
    cases h
    exact ⟨s₂, hr₁.trans hr₂, rfl⟩
  · cases h
    exact ⟨s₁, hr₁, rfl⟩

/-- An abort records a problem, or there is one already. -/
theorem eventQueueAbort_undisturbed (h : Undisturbed c c') (p : AsyncProblem) :
    Undisturbed c (eventQueueAbort c' none p) ↔ c.transaction.problem ≠ none := by
  have hproblem : c'.transaction.problem = c.transaction.problem := by rw [h.transaction]
  constructor
  · intro hsame hnone
    -- the problem that is recorded stays
    have hset : (eventQueueAbort c' none p).transaction.problem ≠ none := by
      have hnew : setAsyncProblem c' p =
          (true, { c' with transaction.problem := some p }.note (.report p)) := by
        unfold setAsyncProblem
        rw [hproblem, hnone]
      unfold eventQueueAbort
      rw [hnew]
      have hrun := (cancelQueuedEventsLoop_run _ _).trans (cancelEventsInProgress_run (cancelQueuedEvents
        ({ c' with transaction.problem := some p }.note (.report p))) none)
      exact hrun.frame.problem (Option.some_ne_none p)
    rw [hsame.transaction] at hset
    exact hset hnone
  · intro hsome
    obtain ⟨q, hq⟩ := Option.ne_none_iff_exists'.mp hsome
    have hold : setAsyncProblem c' p = (false, c'.note (.report p)) := by
      unfold setAsyncProblem
      rw [hproblem, hq]
    unfold eventQueueAbort
    rw [hold]
    exact note_undisturbed h _

/-- **A refused call (proved):** it leaves the conn undisturbed, unless it is `ConnAWriteFromBuffer` with a
large buffer on a conn whose transaction has no problem yet. -/
theorem run_undisturbed {call : AsyncCall} (hs : Refusing s.conn) (hrun : call.run s args = some s') :
    Undisturbed s.conn s'.conn ↔ ¬ (call.HasLargeBuffer args ∧ s.conn.transaction.problem = none) := by
  by_cases hlarge : call.HasLargeBuffer args
  · cases call with
    | writeFromBuffer length rounds buffered =>
      obtain ⟨t, ht, hconn⟩ := connAWriteFromBufferEx_refused hs hlarge hrun
      rw [hconn, eventQueueAbort_undisturbed ht.undisturbed]
      exact ⟨fun h hnot => h hnot.2, fun h hnone => h ⟨hlarge, hnone⟩⟩
    | _ => exact hlarge.elim
  · have hrefused : Refused s s' := by
      cases call with
      | read c => exact connAReadToCondition_refused hs hrun
      | readAndSubmit c qFailure client =>
        obtain ⟨s₁, h₁, h₂⟩ := Option.bind_eq_some_iff.mp hrun
        have hr := connAReadToCondition_refused hs h₁
        exact hr.trans (submit_refused (hr.refusing hs) h₂)
      | readToCB => exact queueUnlessShuttingDown_refused hs hrun
      | readToConn => exact queueUnlessShuttingDown_refused hs hrun
      | sslAccept tls => exact queueUnlessShuttingDown_refused hs hrun
      | writeFromCB memory => exact connAWriteFromCBEx_refused hs hrun
      | flush => exact valid_refused (flushBuffered_refused hs) hrun
      | write length rounds => exact valid_refused (writeClientData_refused hs) hrun
      | writeFromBuffer length rounds buffered =>
        simp only [AsyncCall.run, AsyncSystem.connAWriteFromBufferEx] at hrun
        split at hrun
        next hvalid =>
          rw [if_pos (Int.not_le.mp fun h => hlarge ⟨hvalid, h⟩)] at hrun
          exact writeClientData_refused hs hrun
        · cases hrun
          exact .refl s
      | disconnect => exact valid_refused (queueEvent_refused hs) hrun
      | sslConnect tls => exact valid_refused (queueEvent_refused hs) hrun
      | sslDisconnect => exact valid_refused (queueEvent_refused hs) hrun
    exact ⟨fun _ h => hlarge h.1, fun _ => hrefused.undisturbed⟩

/-- The events in use on a conn that is reached have been allocated. -/
theorem reachable_refusing {s₀ : AsyncSystem} (hinit : s₀.Initial)
    (hs : Reachable (enabled asyncStep) s₀ s) (hrefused : queueingPermitted s.conn = false) :
    Refusing s.conn := by
  have hinv := (asyncInv_reachable hinit hs).queue
  refine ⟨hrefused, fun e he => ?_⟩
  rcases he with ⟨k, hk⟩ | hq
  · exact hinv.order.accepted_allocated e (hinv.active_accepted k e hk)
  · exact hinv.order.accepted_allocated e (hinv.queued_accepted e hq)

end Refused

/-! ### A transaction in the engine -/

/-- A read has been submitted and is being processed. -/
def submittedRead : List AsyncAction :=
  queueRun 0 { type := .read, source := ⟨0, 1⟩ } ++ [.submit false 0 ⟨0, 2⟩]

/-- The arguments are valid, and there is memory for one event. -/
def validArgs : CallArgs := ⟨true, ⟨0, 3⟩, ⟨some 1, ⟨none, none⟩⟩⟩

/-- What a call meets in a conn, and the problem it leaves. -/
def AsyncSystem.afterCall (s : AsyncSystem) (call : AsyncCall) :
    Bool × Option AsyncProblem × Option (Option AsyncProblem) :=
  (queueingPermitted s.conn, s.conn.transaction.problem,
    (call.run s validArgs).map fun s' => s'.conn.transaction.problem)

/-- A disconnect is refused. -/
theorem run_undisturbed_disconnect : ∃ s s' : AsyncSystem, s.conn.transaction.problem = none ∧
    AsyncCall.disconnect.run s validArgs = some s' ∧ Undisturbed s.conn s'.conn := by
  have hcall : (runFrom asyncStep (AsyncSystem.new (some 3)) submittedRead).map
      (fun s => s.afterCall .disconnect) = some (false, none, some none) := by decide +kernel
  obtain ⟨s, hrun, hobs⟩ := Option.map_eq_some_iff.mp hcall
  simp only [AsyncSystem.afterCall, Prod.mk.injEq] at hobs
  obtain ⟨hrefused, hproblem, hafter⟩ := hobs
  obtain ⟨s', hs', _⟩ := Option.map_eq_some_iff.mp hafter
  have hs := reachable_refusing (AsyncSystem.new_initial (some 3)) (reachable_of_runFrom hrun) hrefused
  exact ⟨s, s', hproblem, hs', (run_undisturbed hs hs').mpr fun h => h.1⟩

/-- **A large buffer is refused, and the running transaction fails (proved).** -/
theorem refused_disturbs : ¬ ∀ (s₀ s s' : AsyncSystem) (call : AsyncCall) (args : CallArgs), s₀.Initial →
    Reachable (enabled asyncStep) s₀ s → queueingPermitted s.conn = false →
      call.run s args = some s' → Undisturbed s.conn s'.conn := by
  intro hall
  have hcall : (runFrom asyncStep (AsyncSystem.new (some 3)) submittedRead).map
      (fun s => s.afterCall (.writeFromBuffer 64512 [] ⟨none, ⟨none, none⟩⟩)) =
        some (false, none, some (some ⟨.failed, Errno.enomem, ⟨0, 3⟩⟩)) := by decide +kernel
  obtain ⟨s, hrun, hobs⟩ := Option.map_eq_some_iff.mp hcall
  simp only [AsyncSystem.afterCall, Prod.mk.injEq] at hobs
  obtain ⟨hrefused, hproblem, hafter⟩ := hobs
  obtain ⟨s', hs', hset⟩ := Option.map_eq_some_iff.mp hafter
  have hsame := hall _ s s' _ _ (AsyncSystem.new_initial (some 3)) (reachable_of_runFrom hrun) hrefused hs'
  rw [hsame.transaction, hproblem] at hset
  cases hset

end Connio
