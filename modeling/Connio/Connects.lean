import Connio.Disconnects
import Connio.Recycle

/-!
# Connecting

A `CONN_EVENT_CONNECT` from `connect` to its end, synchronous in `ConnConnectEx` and asynchronous (`connio.c`,
`process.c`, `sockcommon.c`, `sockunix.c`, on Linux).  When it has waited, its second pass returns 0 without asking the
socket: the result rests on what the wait reports.

* `ConnectCalls`, `connectStart` — the system calls of `socketSyncConnectStart`, and what it makes of their answers;
* `WriteBits`, `PollResult`, `sockWaitForWritable` — the wait of a synchronous event;
* `EngineRun`, `asyncConnectWait` — the wait of an asynchronous event, from the test of the problem to
  `AsyncEventCallback`;
* `connectRun`, `connConnectEx` — the event in either mode, and the function around the synchronous one;
* `ConnectSound` — a connect completes only when it is established, and closes its socket otherwise;
* `connectSound_iff` — **PROVED**: it does unless `poll` is interrupted.
-/

namespace Connio

def Errno.einprogress : Errno := 115

/-! ### The system calls -/

/-- The `errno` of a system call that has failed. -/
structure SystemError where
  errno : Errno
  failed : errno ≠ 0
  deriving DecidableEq

/-- What the system calls of `socketSyncConnectStart` answer; `none` is a success.  Without a source address `bind` is
not called. -/
structure ConnectCalls where
  /-- `socCreate` -/
  socket : Except SystemError ℕ
  bind : Option SystemError
  /-- `XplSocketSetMode` with `XPL_SOCKET_MODE_NON_BLOCKING` -/
  nonBlocking : Option SystemError
  connect : Option SystemError

/-- A `connect` that has failed so is under way. -/
def SystemError.pending (e : SystemError) : Bool :=
  e.errno = Errno.ewouldblock || e.errno = Errno.ealready || e.errno = Errno.einprogress

/-- `socketSyncConnectStart`: the error, `blockedOn` and the socket. -/
def connectStart (sp : SOCK) (calls : ConnectCalls) : (Errno × SocketEventType) × SOCK :=
  match calls.socket with
  | .error e => ((e.errno, .none), { sp with number := none })
  | .ok number =>
    let sp := { sp with number := some number }
    match calls.bind with
    | some e => ((e.errno, .none), sp)
    | none =>
      match calls.nonBlocking with
      | some e => ((e.errno, .none), sp)
      | none =>
        match calls.connect with
        | none => ((0, .none), sp)
        | some e => if e.pending then ((Errno.ewouldblock, .connect), sp) else ((e.errno, .none), socketClose sp)

/-- `connect` is called. -/
def ConnectCalls.Reached (calls : ConnectCalls) : Prop :=
  (∃ number, calls.socket = .ok number) ∧ calls.bind = none ∧ calls.nonBlocking = none

/-- **`connect` succeeds at once.** -/
def ConnectCalls.Succeeds (calls : ConnectCalls) : Prop := calls.Reached ∧ calls.connect = none

/-- `connect` is under way. -/
def ConnectCalls.Pending (calls : ConnectCalls) : Prop :=
  calls.Reached ∧ ∃ e, calls.connect = some e ∧ e.pending = true

/-! ### The waits -/

/-- The bits that `poll` or `epoll_wait` reports for a socket that is waited on with `POLLOUT`; one of them is set. -/
structure WriteBits where
  pollOut : Bool
  pollHup : Bool
  pollErr : Bool
  pollNval : Bool
  reported : (pollOut || pollHup || pollErr || pollNval) = true

/-- **The socket is writable, and no error bit is set.** -/
def WriteBits.Clear (bits : WriteBits) : Prop :=
  bits.pollOut = true ∧ (bits.pollHup || bits.pollErr || bits.pollNval) = false

/-- What one `poll` answers. -/
inductive PollResult where
  | ready (bits : WriteBits)
  | timedOut
  | fails (e : SystemError)

/-- `sockWaitForWritable`: 0, or `errno`. -/
def sockWaitForWritable : PollResult → Errno
  | .ready bits =>
    if (bits.pollHup || bits.pollErr || bits.pollNval) = false ∧ bits.pollOut = true then 0
    else if bits.pollHup then Errno.econnreset
    else if bits.pollNval then Errno.einval
    else Errno.eio
  | .timedOut => Errno.etimedout
  | .fails e =>
    -- it is left to the next call on the socket to find out
    if e.errno = Errno.eintr then 0 else e.errno

/-- The error of the wait of a blocked event, and the socket. -/
abbrev ConnectWait := SocketEventType → SOCK → Option (Errno × SOCK)

/-- `SocketWait` -/
def syncConnectWait (poll : PollResult) : ConnectWait := fun blockedOn sp =>
  (socketWait blockedOn (if blockedOn = .none then none else some (sockWaitForWritable poll))).map (·, sp)

/-- How an event leaves the socket engine. -/
inductive EngineAnswer where
  | ready (bits : WriteBits)
  | timedOut
  | killed

/-- What an asynchronous event meets when it would block. -/
structure EngineRun where
  /-- the transaction has a problem -/
  problem : Bool
  /-- `epoll_ctl` -/
  epollErr : Errno
  /-- how often `epoll_wait` is interrupted -/
  interrupts : ℕ
  answer : EngineAnswer

/-- What `_socketEventHandle` distinguishes. -/
def WriteBits.events (bits : WriteBits) : PollEvents :=
  if bits.pollErr || bits.pollHup || bits.pollNval then
    if bits.pollHup then .hup else if bits.pollNval then .nval else .err
  else .ready

/-- The loop around `epoll_wait` of the poll thread. -/
def EngineAnswer.awaited (answer : EngineAnswer) : ℕ → EngineAnswer
  | n + 1 => answer.awaited n
  | 0 => answer

/-- The event of the send slot leaves the engine. -/
def EngineAnswer.leave (sp : SOCK) : EngineAnswer → SOCK
  | .ready bits => pollReady sp .send bits.events
  | .timedOut => pollTimeout sp .send
  | .killed => socketEventKill sp .send

/-- The wait of an asynchronous event `e`: a problem, a submission that fails, or the error that `AsyncEventCallback`
stores. -/
def asyncConnectWait (e : EventId) (run : EngineRun) : ConnectWait := fun blockedOn sp =>
  if run.problem then some (Errno.ecanceled, sp)
  else
    match socketEventWaitEx sp blockedOn e run.epollErr with
    | (0, sp) =>
      (handleSocketEvent ((run.answer.awaited run.interrupts).leave sp) .send).map fun (_, type, error, sp) =>
        (asyncEventError .connect type error, sp)
    | (err, sp) => some (err, sp)

/-! ### The event -/

/-- `EventProcess` for a `CONN_EVENT_CONNECT`: the status it ends with, and the socket. -/
def connectRun (wait : ConnectWait) (ce : ConnEvent) (sp : SOCK) (calls : ConnectCalls) :
    Option (ConnEventStatus × SOCK) :=
  match connectStart sp calls with
  | ((err, blockedOn), sp) =>
    if err = 0 then some (.complete, sp)
    else if err = Errno.ewouldblock then
      match wait blockedOn sp with
      | none => none
      | some (err, sp) =>
        -- the second pass does not ask the socket
        if err = 0 then some (.complete, sp) else some (ce.endsWith err, socketClose sp)
    else some (ce.endsWith err, socketClose sp)

/-- What `ConnConnectEx` is given. -/
structure ConnectCall where
  /-- `SocketAlloc` and the pool have memory -/
  memory : Bool
  source : CodeSource
  previous : Option ℕ
  /-- `validConnIOArgs` and `validFileAndLine` -/
  valid : Bool
  event : EventId
  free : ConnLife.FreeInput

/-- `ConnConnectEx` with a block of the pool: whether it returns the conn, and the block. -/
def connConnectEx (s : ConnLife) (call : ConnectCall) (calls : ConnectCalls) (poll : PollResult) :
    Option (Bool × ConnLife) :=
  if !call.memory then some (false, s)
  else
    let s := s.connAllocEx none call.source call.previous
    let refused := (s.connFreeEx call.free).map fun r => (false, r.2)
    if s.conn.shuttingDown || !call.valid then refused
    else
      match synchronousConnectEventInsert s.conn call.event with
      | .error _ => refused
      | .ok c =>
        match connectRun (syncConnectWait poll) { type := .connect, source := call.source } c.sp calls with
        | none => none
        | some (status, sp) =>
          let c := { c with sp := sp }
          let s := s.setConn (match synchronousConnectEventRemove c call.event with | .ok c => c | .error _ => c)
          if status = .complete then some (true, s) else (s.connFreeEx call.free).map fun r => (false, r.2)

/-! ### What a connect owes -/

/-- A connect in either mode, with what it meets. -/
inductive Connecting where
  /-- `ConnConnectEx` -/
  | sync (life : ConnLife) (recycled : Recycled life) (call : ConnectCall) (poll : PollResult)
  /-- a queued event -/
  | async (ce : ConnEvent) (sp : SOCK) (e : EventId) (run : EngineRun)

/-- **The socket is reported writable with no error bit.** -/
def Connecting.Writable : Connecting → Prop
  | .sync _ _ _ poll => ∃ bits : WriteBits, poll = .ready bits ∧ bits.Clear
  | .async _ _ _ run => ∃ bits : WriteBits, run.answer = .ready bits ∧ bits.Clear

/-- **The connection is there.** -/
def Connecting.Established (c : Connecting) (calls : ConnectCalls) : Prop :=
  calls.Succeeds ∨ calls.Pending ∧ c.Writable

/-- **A connect is sound:** it ends; it completes only when the connection is there; otherwise its socket is closed, and
`ConnConnectEx` has freed the conn. -/
def ConnectSound (c : Connecting) (calls : ConnectCalls) : Prop :=
  match c with
  | .sync life recycled call poll =>
    ∃ returned t, connConnectEx life call calls poll = some (returned, t) ∧
      (returned = true → Connecting.Established (.sync life recycled call poll) calls) ∧
      (returned = false → t.conn.state = .cached ∧ (call.memory = true → t.conn.sp.number = none))
  | .async ce sp e run =>
    ∃ status sp', connectRun (asyncConnectWait e run) ce sp calls = some (status, sp') ∧
      (status = .complete → Connecting.Established (.async ce sp e run) calls) ∧
      (status ≠ .complete → sp'.number = none)

/-- `ConnConnectEx` comes to its event. -/
def ConnectCall.Reaches (call : ConnectCall) (life : ConnLife) : Prop :=
  call.memory = true ∧ life.conn.shuttingDown = false ∧ call.valid = true

/-- **`poll` is interrupted** while a synchronous connect that is under way waits in it. -/
def Connecting.Interrupted (c : Connecting) (calls : ConnectCalls) : Prop :=
  match c with
  | .sync life _ call poll =>
    call.Reaches life ∧ calls.Pending ∧ ∃ e : SystemError, poll = .fails e ∧ e.errno = Errno.eintr
  | .async .. => False

/-! ### The start -/

section Start

variable {sp : SOCK} {calls : ConnectCalls} {ce : ConnEvent} {wait : ConnectWait}

/-- **What `socketSyncConnectStart` does (proved).** -/
theorem connectStart_cases (sp : SOCK) (calls : ConnectCalls) :
    (calls.Succeeds ∧ ∃ number, connectStart sp calls = ((0, .none), { sp with number := some number })) ∨
      (calls.Pending ∧
        ∃ number, connectStart sp calls = ((Errno.ewouldblock, .connect), { sp with number := some number })) ∨
      (¬ calls.Succeeds ∧ ¬ calls.Pending ∧ ∃ err sp', connectStart sp calls = ((err, .none), sp') ∧ err ≠ 0) := by
  obtain ⟨socket, bind, nonBlocking, connect⟩ := calls
  have hunreached : ¬ ConnectCalls.Reached ⟨socket, bind, nonBlocking, connect⟩ →
      ¬ ConnectCalls.Succeeds ⟨socket, bind, nonBlocking, connect⟩ ∧
        ¬ ConnectCalls.Pending ⟨socket, bind, nonBlocking, connect⟩ :=
    fun h => ⟨fun hs => h hs.1, fun hp => h hp.1⟩
  cases socket with
  | error e =>
    obtain ⟨hs, hp⟩ := hunreached fun h => by
      obtain ⟨_, hsocket⟩ := h.1
      cases hsocket
    exact .inr (.inr ⟨hs, hp, _, _, rfl, e.failed⟩)
  | ok number =>
    cases bind with
    | some e =>
      obtain ⟨hs, hp⟩ := hunreached fun h => by cases h.2.1
      exact .inr (.inr ⟨hs, hp, _, _, rfl, e.failed⟩)
    | none =>
      cases nonBlocking with
      | some e =>
        obtain ⟨hs, hp⟩ := hunreached fun h => by cases h.2.2
        exact .inr (.inr ⟨hs, hp, _, _, rfl, e.failed⟩)
      | none =>
        have hreached : ConnectCalls.Reached ⟨.ok number, none, none, connect⟩ := ⟨⟨number, rfl⟩, rfl, rfl⟩
        cases connect with
        | none => exact .inl ⟨⟨hreached, rfl⟩, number, rfl⟩
        | some e =>
          cases hpending : e.pending with
          | true => exact .inr (.inl ⟨⟨hreached, e, rfl, hpending⟩, number, by simp [connectStart, hpending]⟩)
          | false =>
            have hnot : ¬ ConnectCalls.Pending ⟨.ok number, none, none, some e⟩ := by
              rintro ⟨_, e', he', hp⟩
              cases he'
              rw [hpending] at hp
              cases hp
            refine .inr (.inr ⟨fun hs => ?_, hnot, e.errno, socketClose { sp with number := some number }, ?_, e.failed⟩)
            · cases hs.2
            · simp [connectStart, hpending]

/-- **What a wait owes:** it lets the event complete only when `goes`; there is nothing to wait for without a call that
would block. -/
structure ConnectWait.Sound (wait : ConnectWait) (goes : Prop) : Prop where
  connect : ∀ sp : SOCK, sp.number ≠ none → ∃ err sp', wait .connect sp = some (err, sp') ∧ (err = 0 → goes)
  nothing : ∀ sp, ∃ err sp', wait .none sp = some (err, sp') ∧ err ≠ 0

theorem ConnEvent.endsWith_ne_complete (ce : ConnEvent) (err : Errno) : ce.endsWith err ≠ .complete :=
  abortStatus_ne_complete _

/-- **The event (proved)** completes when `connect` succeeds at once, or when its wait lets it; else its socket is
closed. -/
theorem connectRun_sound {goes : Prop} (hwait : wait.Sound goes) (ce : ConnEvent) (sp : SOCK) (calls : ConnectCalls) :
    ∃ status sp', connectRun wait ce sp calls = some (status, sp') ∧
      (status = .complete → calls.Succeeds ∨ calls.Pending ∧ goes) ∧ (status ≠ .complete → sp'.number = none) := by
  have hended : ∀ (err : Errno) (sp' : SOCK), ∃ status sp'', some (ce.endsWith err, socketClose sp') = some (status, sp'') ∧
      (status = .complete → calls.Succeeds ∨ calls.Pending ∧ goes) ∧ (status ≠ .complete → sp''.number = none) :=
    fun err sp' => ⟨_, _, rfl, fun h => absurd h (ce.endsWith_ne_complete err), fun _ => rfl⟩
  rcases connectStart_cases sp calls with ⟨hsucceeds, number, hstart⟩ | ⟨hpending, number, hstart⟩ |
    ⟨_, _, err, sp₁, hstart, herr⟩
  · refine ⟨.complete, { sp with number := some number }, ?_, fun _ => .inl hsucceeds, fun h => absurd rfl h⟩
    simp only [connectRun, hstart]
    rfl
  · obtain ⟨err, sp₁, hw, hgoes⟩ := hwait.connect { sp with number := some number } (by simp)
    simp only [connectRun, hstart, hw, if_neg (show Errno.ewouldblock ≠ 0 by decide), if_true]
    by_cases herr : err = 0
    · exact ⟨.complete, sp₁, if_pos herr, fun _ => .inr ⟨hpending, hgoes herr⟩, fun h => absurd rfl h⟩
    · simp only [if_neg herr]
      exact hended err sp₁
  · simp only [connectRun, hstart, if_neg herr]
    split
    · obtain ⟨err', sp₂, hw, herr'⟩ := hwait.nothing sp₁
      simp only [hw, if_neg herr']
      exact hended err' sp₂
    · exact hended err sp₁

variable (ce sp) in
/-- A connect that is under way completes when its wait lets it. -/
theorem connectRun_pending (hpending : calls.Pending) (hwait : ∀ sp, wait .connect sp = some (0, sp)) :
    ∃ sp', connectRun wait ce sp calls = some (.complete, sp') := by
  rcases connectStart_cases sp calls with ⟨hsucceeds, _⟩ | ⟨_, number, hstart⟩ | ⟨_, hnot, _⟩
  · obtain ⟨_, e, he, _⟩ := hpending
    rw [hsucceeds.2] at he
    cases he
  · refine ⟨{ sp with number := some number }, ?_⟩
    simp only [connectRun, hstart, hwait, if_neg (show Errno.ewouldblock ≠ 0 by decide), if_true]
  · exact absurd hpending hnot

end Start

/-! ### The two waits -/

theorem sockWaitForWritable_eq_zero {poll : PollResult} :
    sockWaitForWritable poll = 0 ↔
      (∃ bits : WriteBits, poll = .ready bits ∧ bits.Clear) ∨
        ∃ e : SystemError, poll = .fails e ∧ e.errno = Errno.eintr := by
  cases poll with
  | ready bits =>
    simp only [sockWaitForWritable, PollResult.ready.injEq, exists_eq_left', reduceCtorEq, false_and, exists_false,
      or_false, WriteBits.Clear]
    split
    next hclear => exact iff_of_true rfl ⟨hclear.2, hclear.1⟩
    next hnot =>
      refine iff_of_false ?_ fun h => hnot ⟨h.2, h.1⟩
      split
      · decide
      · split <;> decide
  | timedOut => simp [sockWaitForWritable, Errno.etimedout]
  | fails e =>
    simp only [sockWaitForWritable, reduceCtorEq, false_and, exists_false, false_or, PollResult.fails.injEq,
      exists_eq_left']
    split
    next heintr => exact iff_of_true rfl heintr
    next hnot => exact iff_of_false e.failed hnot

/-- **The wait of a synchronous event (proved).** -/
theorem syncConnectWait_sound (poll : PollResult) : (syncConnectWait poll).Sound (sockWaitForWritable poll = 0) where
  connect sp _ := ⟨sockWaitForWritable poll, sp, rfl, id⟩
  nothing sp := ⟨Errno.econniobug, sp, rfl, by decide⟩

theorem EngineAnswer.awaited_eq (answer : EngineAnswer) (n : ℕ) : answer.awaited n = answer := by
  induction n with
  | zero => rfl
  | succ n ih => exact ih

/-- The bits for which `_socketEventHandle` sets no error. -/
theorem WriteBits.events_eq_ready {bits : WriteBits} (h : bits.events = .ready) : bits.Clear := by
  obtain ⟨pollOut, pollHup, pollErr, pollNval, hreported⟩ := bits
  cases pollHup <;> cases pollErr <;> cases pollNval <;> first | cases h; done | exact ⟨by simpa using hreported, rfl⟩

/-- An event that leaves the engine without an error was writable. -/
theorem EngineAnswer.leave_handled (answer : EngineAnswer) (sp : SOCK) (se : SocketEvent) {e : EventId}
    (harg : se.arg = some e) (htype : se.type = .writable) (herror : se.error = 0) (hin : se.inEngine = true) :
    ∃ err sp', handleSocketEvent (answer.leave { sp with event := sp.event.set .send se }) .send =
        some (e, .writable, err, sp') ∧
      (err = 0 → ∃ bits : WriteBits, answer = .ready bits ∧ bits.Clear) := by
  obtain ⟨arg, type, error, inEngine, begun⟩ := se
  subst harg htype herror hin
  cases answer with
  | timedOut => exact ⟨_, _, rfl, fun h => by cases h⟩
  | killed => exact ⟨_, _, rfl, fun h => by cases h⟩
  | ready bits =>
    simp only [EngineAnswer.leave]
    cases hevents : bits.events with
    | ready => exact ⟨_, _, rfl, fun _ => ⟨bits, rfl, WriteBits.events_eq_ready hevents⟩⟩
    | hup | nval | err => exact ⟨_, _, rfl, fun h => by cases h⟩

/-- **The wait of an asynchronous event (proved)** lets it complete only when the socket is writable. -/
theorem asyncConnectWait_sound (e : EventId) (run : EngineRun) :
    (asyncConnectWait e run).Sound (∃ bits : WriteBits, run.answer = .ready bits ∧ bits.Clear) where
  connect sp hnumber := by
    unfold asyncConnectWait
    split
    · exact ⟨_, _, rfl, fun h => by cases h⟩
    · have htype : sockEventTranslate .connect = .writable := rfl
      simp only [socketEventWaitEx, htype, socketEventSlot, if_neg hnumber]
      cases hlink : seLinkCe (sp.event.get .send) .writable e with
      | none => exact ⟨_, _, rfl, fun h => by cases h⟩
      | some se =>
        have hse : se.arg = some e ∧ se.type = .writable ∧ se.error = 0 := by
          unfold seLinkCe at hlink
          split at hlink <;> cases hlink
          exact ⟨rfl, rfl, rfl⟩
        obtain ⟨harg, hwritable, herror⟩ := hse
        by_cases hepoll : run.epollErr = 0
        · obtain ⟨err, sp', hhandled, hclear⟩ := run.answer.leave_handled sp { se with inEngine := true }
            harg hwritable herror rfl
          simp only [sockEventAdd, hepoll, ne_eq, not_true_eq_false, if_false, EngineAnswer.awaited_eq, hhandled]
          refine ⟨err, sp', rfl, hclear⟩
        · simp only [sockEventAdd, ne_eq, hepoll, not_false_eq_true, if_true]
          refine ⟨_, _, rfl, fun h => absurd h hepoll⟩
  nothing sp := by
    unfold asyncConnectWait
    split
    · exact ⟨_, _, rfl, by decide⟩
    · exact ⟨_, _, rfl, by decide⟩

/-! ### The function -/

section Function

variable {s : ConnLife} {call : ConnectCall} {calls : ConnectCalls} {poll : PollResult}

/-- A conn that has been released and recycled. -/
theorem release_connRecycle (s : ConnLife) (e : EventId) :
    (s.release.connRecycle e).conn.state = .cached ∧ (s.release.connRecycle e).conn.sp.number = none := by
  unfold ConnLife.connRecycle
  cases hremove : synchronousConnectEventRemove s.release.conn e with
  | error err => exact ⟨rfl, rfl⟩
  | ok c =>
    refine ⟨rfl, ?_⟩
    unfold synchronousConnectEventRemove at hremove
    split_ifs at hremove
    cases hremove
    rfl

/-- `connFreeEx` of an idle conn without a socket. -/
theorem connFreeEx_unconnected (hstate : s.conn.state = .idle) (hactive : s.conn.activeEvent = ⟨none, none, none⟩)
    (hnumber : s.conn.sp.number = none) (input : ConnLife.FreeInput) :
    ∃ t, s.connFreeEx input = some (true, t) ∧ t.conn.state = .cached ∧ t.conn.sp.number = none := by
  have hinsert : synchronousConnectEventInsert s.conn input.event =
      .ok (slotSet (connChangeState s.conn .synchronous) .connect input.event) := by
    unfold synchronousConnectEventInsert
    rw [if_pos hstate, hactive]
    rfl
  have hclosed : (slotSet (connChangeState s.conn .synchronous) .connect input.event).sp.number.isSome = false := by
    show s.conn.sp.number.isSome = false
    rw [hnumber]
    rfl
  unfold ConnLife.connFreeEx
  rw [hstate, hinsert]
  simp only [hclosed, Bool.false_eq_true, if_false, Option.map_some]
  exact ⟨_, rfl, release_connRecycle _ _⟩

/-- The insert, the event and the remove of `ConnConnectEx` on a new conn. -/
theorem connConnectEx_event (hrecycled : Recycled s) (hreaches : call.Reaches s) {status : ConnEventStatus} {sp : SOCK}
    (hrun : connectRun (syncConnectWait poll) { type := .connect, source := call.source } {} calls = some (status, sp)) :
    ∃ t : ConnLife, t.conn.state = .idle ∧ t.conn.activeEvent = ⟨none, none, none⟩ ∧ t.conn.sp = sp ∧
      connConnectEx s call calls poll =
        if status = .complete then some (true, t) else (t.connFreeEx call.free).map fun r => (false, r.2) := by
  obtain ⟨hmemory, hdown, hvalid⟩ := hreaches
  have hactive : (s.connAllocEx none call.source call.previous).conn.activeEvent = ⟨none, none, none⟩ := hrecycled.active
  have hdown' : (s.connAllocEx none call.source call.previous).conn.shuttingDown = false := hdown
  obtain ⟨c, hc⟩ : ∃ c, c = slotSet (connChangeState (s.connAllocEx none call.source call.previous).conn .synchronous)
      .connect call.event := ⟨_, rfl⟩
  have hinsert : synchronousConnectEventInsert (s.connAllocEx none call.source call.previous).conn call.event = .ok c := by
    unfold synchronousConnectEventInsert
    rw [hactive, hc]
    rfl
  have hslots : c.activeEvent = ⟨some call.event, none, none⟩ := by
    rw [hc]
    show (s.connAllocEx none call.source call.previous).conn.activeEvent.set .connect _ = _
    rw [hactive]
    rfl
  have hremove : synchronousConnectEventRemove { c with sp := sp } call.event =
      .ok (connChangeState (slotClear { c with sp := sp } .connect) .idle) := by
    unfold synchronousConnectEventRemove
    rw [if_pos (by rw [hc]; rfl), if_pos (by rw [hslots])]
  have hsp : c.sp = {} := by
    rw [hc]
    rfl
  refine ⟨(s.connAllocEx none call.source call.previous).setConn
    (connChangeState (slotClear { c with sp := sp } .connect) .idle), rfl, ?_, rfl, ?_⟩
  · show c.activeEvent.set .connect none = _
    rw [hslots]
    rfl
  · unfold connConnectEx
    simp only [hmemory, hdown', hvalid, Bool.not_true, Bool.or_self, Bool.false_eq_true, if_false, hinsert, hsp, hrun,
      hremove]

/-- A call that does not come to its event. -/
theorem connConnectEx_refused (hrecycled : Recycled s) (hmemory : call.memory = true)
    (hrefused : s.conn.shuttingDown = true ∨ call.valid = false) :
    ∃ t, connConnectEx s call calls poll = some (false, t) ∧ t.conn.state = .cached ∧ t.conn.sp.number = none := by
  obtain ⟨t, hfree, ht⟩ := connFreeEx_unconnected (s := s.connAllocEx none call.source call.previous) rfl
    hrecycled.active rfl call.free
  refine ⟨t, ?_, ht⟩
  have hdown : ((s.connAllocEx none call.source call.previous).conn.shuttingDown || !call.valid) = true := by
    show (s.conn.shuttingDown || !call.valid) = true
    rcases hrefused with h | h <;> simp [h]
  unfold connConnectEx
  simp only [hmemory, Bool.not_true, Bool.false_eq_true, if_false, hdown, if_true, hfree, Option.map_some]

/-- **`ConnConnectEx` (proved)** returns the conn when its event completes, and frees it otherwise. -/
theorem connConnectEx_sound (hrecycled : Recycled s) (call : ConnectCall) (calls : ConnectCalls) (poll : PollResult) :
    ∃ returned t, connConnectEx s call calls poll = some (returned, t) ∧
      (returned = true → call.Reaches s ∧ (calls.Succeeds ∨ calls.Pending ∧ sockWaitForWritable poll = 0)) ∧
      (returned = false → t.conn.state = .cached ∧ (call.memory = true → t.conn.sp.number = none)) := by
  by_cases hmemory : call.memory = true
  · by_cases hrefused : s.conn.shuttingDown = true ∨ call.valid = false
    · obtain ⟨t, hcall, hstate, hnumber⟩ := connConnectEx_refused hrecycled hmemory hrefused
      exact ⟨false, t, hcall, fun h => absurd h Bool.false_ne_true, fun _ => ⟨hstate, fun _ => hnumber⟩⟩
    · obtain ⟨hdown, hvalid⟩ := not_or.mp hrefused
      have hreaches : call.Reaches s := ⟨hmemory, Bool.eq_false_iff.mpr hdown, eq_true_of_ne_false hvalid⟩
      obtain ⟨status, sp, hrun, hcomplete, hclosed⟩ := connectRun_sound (syncConnectWait_sound poll)
        { type := .connect, source := call.source } {} calls
      obtain ⟨t, hstate, hactive, hsp, hcall⟩ := connConnectEx_event hrecycled hreaches hrun
      rw [hcall]
      by_cases hstatus : status = .complete
      · exact ⟨true, t, if_pos hstatus, fun _ => ⟨hreaches, hcomplete hstatus⟩, fun h => absurd h.symm Bool.false_ne_true⟩
      · obtain ⟨t', hfree, hcached, hnumber⟩ := connFreeEx_unconnected hstate hactive
          (by rw [hsp]; exact hclosed hstatus) call.free
        refine ⟨false, t', ?_, fun h => absurd h Bool.false_ne_true, fun _ => ⟨hcached, fun _ => hnumber⟩⟩
        rw [if_neg hstatus, hfree]
        rfl
  · refine ⟨false, s, ?_, fun h => absurd h Bool.false_ne_true, fun _ => ⟨hrecycled.state, fun h => absurd h hmemory⟩⟩
    simp [connConnectEx, hmemory]

end Function

/-! ### Both modes -/

theorem ConnectCalls.Pending.not_succeeds {calls : ConnectCalls} (h : calls.Pending) : ¬ calls.Succeeds := by
  intro hs
  obtain ⟨_, e, he, _⟩ := h
  rw [hs.2] at he
  cases he

/-- **A connect is sound exactly when `poll` is not interrupted (proved).** -/
theorem connectSound_iff (c : Connecting) (calls : ConnectCalls) : ConnectSound c calls ↔ ¬ c.Interrupted calls := by
  cases c with
  | async ce sp e run => exact iff_of_true (connectRun_sound (asyncConnectWait_sound e run) ce sp calls) id
  | sync life recycled call poll =>
    constructor
    · rintro ⟨returned, t, hcall, hestablished, _⟩ ⟨hreaches, hpending, e, rfl, heintr⟩
      -- an interrupted `poll` lets the event complete
      have hwait : ∀ sp, syncConnectWait (.fails e) .connect sp = some (0, sp) := by
        intro sp
        simp [syncConnectWait, sockWaitForWritable, heintr, socketWait]
      obtain ⟨sp, hrun⟩ := connectRun_pending {} { type := .connect, source := call.source } hpending hwait
      obtain ⟨_, _, _, _, heq⟩ := connConnectEx_event recycled hreaches hrun
      rw [heq, if_pos rfl] at hcall
      obtain ⟨rfl, _⟩ := Prod.mk.inj (Option.some.inj hcall)
      rcases hestablished rfl with hsucceeds | ⟨_, bits, hpoll, _⟩
      · exact hpending.not_succeeds hsucceeds
      · cases hpoll
    · intro hnot
      obtain ⟨returned, t, hcall, hreturned, hfreed⟩ := connConnectEx_sound recycled call calls poll
      refine ⟨returned, t, hcall, fun h => ?_, hfreed⟩
      obtain ⟨hreaches, hsucceeds | ⟨hpending, hwait⟩⟩ := hreturned h
      · exact .inl hsucceeds
      · rcases sockWaitForWritable_eq_zero.mp hwait with hwritable | hinterrupted
        · exact .inr ⟨hpending, hwritable⟩
        · exact absurd ⟨hreaches, hpending, hinterrupted⟩ hnot

/-- `ConnConnect` on a new block of the pool. -/
def newConnect : ConnectCall where
  memory := true
  source := ⟨0, 0⟩
  previous := none
  valid := true
  event := 0
  free := ⟨1, .timesOut, ⟨[], 0⟩⟩

/-- `connect` on socket 3 is under way. -/
def connectUnderWay : ConnectCalls where
  socket := .ok 3
  bind := none
  nonBlocking := none
  connect := some ⟨Errno.einprogress, by decide⟩

/-- **A signal connects a conn:** `poll` is interrupted, and `ConnConnectEx` returns the conn. -/
theorem interrupted_connects :
    ¬ ∀ (c : Connecting) (calls : ConnectCalls), ConnectSound c calls := by
  intro h
  have hsound := h (.sync (ConnLife.created ⟨0, 0, 0, 0⟩ false false) (ConnLife.created_recycled _ _ _) newConnect
    (.fails ⟨Errno.eintr, by decide⟩)) connectUnderWay
  obtain ⟨returned, t, hcall, hestablished, _⟩ := hsound
  have hreturned : (connConnectEx (ConnLife.created ⟨0, 0, 0, 0⟩ false false) newConnect connectUnderWay
      (.fails ⟨Errno.eintr, by decide⟩)).map Prod.fst = some true := by decide
  rw [hcall] at hreturned
  rcases hestablished (Option.some.inj hreturned) with hsucceeds | ⟨_, bits, hpoll, _⟩
  · cases hsucceeds.2
  · cases hpoll

end Connio
