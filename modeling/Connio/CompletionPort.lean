import Connio.Event
import Connio.Lib.Service

/-!
# The completion port

On Windows the socket engine is an I/O completion port (`sockwin.c`): `sockEventAdd` starts an overlapped operation, the
thread that takes its completion out of the port begins `HandleSocketEvent`, and `sockEventKill` and the timer of the event
only cancel the operation.  A step is a hold of the `slock` of the `SOCK`, or what a thread does between two; the callback of
a timer holds the lock of the timer only, so that it unlinks the timer, tests the event and marks it in a step each.

* `PortEvent`, `PortSystem` — a `SocketEvent`, and the packets and threads that are under way for it;
* `sockEventAdd`, `socketEventWaitEx`, `sockEventKill`, `timerCallback`, `eventTimeout`, `takePacket`, `handleSocketEvent`
  — the functions;
* `PortReport.Right` — a callback is given what has become of the submission;
* `portStep_inv` — **PROVED**: the step lemma;
* `PortServes.step` — **PROVED**: a step is nothing for the service of the event, or some of its steps;
* `reachable_port` — **PROVED**: no assertion fails but those on what the source does not foresee, every callback is right,
  and the port is a service, in every run without a late packet and without a late mark of a timer;
* `port_fails`, `mark_fails` — **PROVED**: not so when an operation is done at once and its packet comes out nevertheless,
  nor when a timer marks a later submission.

Listeners are not modelled here.  The timers are those of `EventTimers`: one that runs out finds the submission that it was
made for.
-/

namespace Connio.Port

open Connio.Lib

/-! ### The event -/

/-- `FSE_CANCELED` and `FSE_TIMEDOUT` -/
structure PortFlags where
  canceled : Bool := false
  timedout : Bool := false
  deriving DecidableEq, Repr

/-- A `SocketEvent`. -/
structure PortEvent where
  type : SocketEventType := .none
  /-- `cb.arg` -/
  arg : Option EventId := none
  /-- `IOCP_EVENT_STATE_WAIT_ACTIVE` -/
  active : Bool := false
  flags : PortFlags := {}
  /-- it has a timer -/
  timer : Bool := false
  timedout : Bool := false
  error : Errno := 0
  deriving DecidableEq, Repr

/-- `SeGetFlags` is 0. -/
def PortEvent.noFlags (se : PortEvent) : Bool := se.flags = {}

/-- **What a callback is given,** and what has happened to the submission. -/
structure PortReport where
  submission : ℕ
  type : SocketEventType
  arg : EventId
  error : Errno
  /-- it was killed while the kernel had the operation -/
  killed : Bool
  /-- its timer ran out in the meantime -/
  expired : Bool
  /-- the error of the operation -/
  outcome : Errno
  deriving DecidableEq, Repr

/-- A callback of a timer that has unlinked it. -/
structure TimerCallback where
  /-- the submission that the timer was made for -/
  submission : ℕ
  /-- `eventTimeout` has found the event active -/
  tested : Bool := false
  deriving DecidableEq, Repr

/-- The event, and what is under way for it. -/
structure PortSystem where
  se : PortEvent := {}
  /-- the packets that have not come out of the port, and operations that will post one -/
  packets : ℕ := 0
  /-- threads that have taken a packet and released `slock`; whether they begin `HandleSocketEvent` -/
  returning : List Bool := []
  /-- threads of `HandleSocketEvent` that have not run yet -/
  begun : ℕ := 0
  timers : List TimerCallback := []
  /-- the calls of `SocketEventWaitEx` that returned 0 -/
  submissions : ℕ := 0
  /-- what has happened to the last one; no modelled function reads these -/
  killed : Bool := false
  expired : Bool := false
  outcome : Errno := 0
  /-- the callbacks, in the order in which they were captured -/
  reports : List PortReport := []
  /-- a `DebugAssert` has failed -/
  asserted : Bool := false
  /-- what the source does not foresee: a linked event was submitted, a socket could not be bound to the port, or a timer
  could not be started; no modelled function reads it -/
  unforeseen : Bool := false
  deriving DecidableEq, Repr

/-- What `sockEventAdd` meets. -/
inductive AddAnswer where
  /-- the socket cannot be bound to the port -/
  | unbound (err : Errno)
  /-- `seTimerAlloc` fails -/
  | noTimer (err : Errno)
  /-- the operation is pending; `timer`: the event may time out -/
  | pending (timer : Bool)
  /-- a connect or a disconnect is done at once; `posts`: its packet comes out of the port nevertheless -/
  | done (posts : Bool)
  | fails (err : Errno)
  deriving DecidableEq, Repr

namespace PortSystem

variable (s : PortSystem)

def check (p : Bool) : PortSystem := { s with asserted := s.asserted || !p }

/-- `DebugAssert( 0 )` for something that is not foreseen. -/
def notForeseen : PortSystem := { s with asserted := true, unforeseen := true }

/-- `SOCK_EVENT_TYPE_READABLE` or `SOCK_EVENT_TYPE_WRITABLE` -/
def reads : Bool := s.se.type = .readable ∨ s.se.type = .writable

/-- `sockEventAdd`: whether it returns -1, `doneAlready`, and the event; `none` when it cannot meet this. -/
def sockEventAdd (answer : AddAnswer) : Option (Bool × Bool × PortSystem) :=
  let s := s.check s.se.noFlags
  let s := { s with se := { s.se with error := 0, timedout := false } }
  match answer with
  | .unbound err => some (true, false, { s with se := { s.se with error := err } }.notForeseen)
  | .noTimer err =>
    if s.se.active ∧ s.reads = false then some (true, false, s.check false)
    else some (true, false, { s with se := { s.se with error := err } })
  | .pending timer =>
    if s.se.active then some (true, false, s.check false)
    else some (false, false,
      { s with se := { s.se with active := true, timer := timer || s.se.timer }, packets := s.packets + 1 })
  | .done posts =>
    if s.reads then none
    else if s.se.active then some (true, false, s.check false)
    else some (false, true,
      { s with se := { s.se with timer := false }, packets := if posts then s.packets + 1 else s.packets })
  | .fails err =>
    if s.se.active then some (true, false, s.check false)
    else some (true, false, { s with se := { s.se with timer := false, error := err } })

/-- A submission has been accepted. -/
def accept : PortSystem :=
  { s with submissions := s.submissions + 1, killed := false, expired := false, outcome := 0 }

/-- `SeLinkCe` for an event that is not linked -/
def seLinkCe (type : SocketEventType) (cbArg : EventId) : PortSystem :=
  { s with se := { s.se with arg := some cbArg, type := type, error := 0 } }

/-- `SeUnlinkCe` -/
def seUnlinkCe : PortSystem := { s with se := { s.se with arg := none } }

/-- What `SocketEventWaitEx` does when `sockEventAdd` has returned. -/
def added : Bool × Bool × PortSystem → PortSystem
  | (true, _, s) => s.seUnlinkCe
  | (false, true, s) => { s.accept.check s.se.noFlags with begun := s.begun + 1 }
  | (false, false, s) => s.accept

/-- `SocketEventWaitEx` for a valid socket -/
def socketEventWaitEx (type : SocketEventType) (cbArg : EventId) (answer : AddAnswer) : Option PortSystem :=
  match s.se.arg with
  -- EBUSY
  | some _ => some s.notForeseen
  | none => ((s.seLinkCe type cbArg).sockEventAdd answer).map added

/-- `sockEventKill` -/
def sockEventKill : PortSystem :=
  if s.se.active ∧ s.se.type ≠ .disconnect then
    if s.se.flags.canceled = false ∧ s.se.flags.timedout = false then
      { s with se := { s.se with flags := { s.se.flags with canceled := true } } }
    else s
  else s

/-- `timerCallback` up to `eventTimeout`; `timerStart` does the same when `SetWaitableTimer` fails. -/
def timerCallback (starts : Bool) : PortSystem :=
  let s := if starts then s else s.notForeseen
  { s with se := { s.se with timer := false }, timers := ⟨s.submissions, false⟩ :: s.timers }

/-- What `eventTimeout` tests. -/
def timesOut : Bool := s.se.active ∧ s.se.type ≠ .disconnect

/-- `eventTimeout` for an event that it has found active -/
def eventTimeout : PortSystem := { s with se := { s.se with timer := false, timedout := true } }

/-- `TimerKill` -/
def timerKill : PortSystem :=
  { s with se := { s.se with timer := false, error := if s.se.timedout then Errno.etimedout else s.se.error } }

/-- The error of an event whose packet has come out; `err` is 0 when the operation has succeeded. -/
def settle (err : Errno) : PortSystem :=
  if s.se.flags = { canceled := true } then
    { s with se := { s.se with flags := {}, error := Errno.ecanceled } }
  else if s.se.flags = { timedout := true } then
    { s with se := { s.se with flags := {}, error := Errno.etimedout } }
  else if err ≠ 0 then { s with se := { s.se with error := err } }
  else s

/-- What `_IOCPThread` does under `slock`. -/
def takePacket (err : Errno) : PortSystem :=
  if s.se.active then
    let s := (s.settle err).timerKill
    let s := { s with se := { s.se with active := false } }
    { s.check s.se.noFlags with returning := true :: s.returning }
  else { s.check false with returning := false :: s.returning }

/-- `HandleSocketEvent` up to the call of the callback. -/
def handleSocketEvent : PortSystem :=
  match s.se.arg with
  | some arg =>
    { s.seUnlinkCe with
      reports := s.reports ++ [⟨s.submissions, s.se.type, arg, s.se.error, s.killed, s.expired, s.outcome⟩] }
  | none => s.check false

/-- The kernel has an operation that may be cancelled. -/
def inKernel : Bool := s.packets ≠ 0 ∧ s.se.type ≠ .disconnect

end PortSystem

inductive PortAction where
  | submit (type : SocketEventType) (cbArg : EventId) (answer : AddAnswer)
  | kill
  /-- the timer of the event runs out, or cannot be started -/
  | expire (starts : Bool)
  /-- `eventTimeout` tests the event -/
  | test (timer : TimerCallback)
  /-- it marks the event, and cancels its operation -/
  | mark (timer : TimerCallback)
  /-- `GetQueuedCompletionStatus` -/
  | packet (err : Errno)
  /-- a thread that has taken a packet sets `timedout` to FALSE, and begins `HandleSocketEvent` if it has to -/
  | goOn (begins : Bool)
  | handle
  deriving DecidableEq, Repr

/-- **One step;** `none` when it is not enabled. -/
def portStep (s : PortSystem) : PortAction → Option PortSystem
  | .submit type cbArg answer => if type = .none then none else s.socketEventWaitEx type cbArg answer
  | .kill => some { s.sockEventKill with killed := s.killed || s.inKernel }
  | .expire starts => if s.se.timer then some (s.timerCallback starts) else none
  | .test timer =>
    if timer ∈ s.timers ∧ timer.tested = false then
      let timers := s.timers.erase timer
      some { s with timers := if s.timesOut then { timer with tested := true } :: timers else timers }
    else none
  | .mark timer =>
    if timer ∈ s.timers ∧ timer.tested = true then
      some { s.eventTimeout with
        timers := s.timers.erase timer
        expired := s.expired || (s.inKernel && timer.submission = s.submissions) }
    else none
  | .packet err =>
    match s.packets with
    | packets + 1 => some { s.takePacket err with packets := packets, outcome := err }
    | 0 => none
  | .goOn begins =>
    if begins ∈ s.returning then
      some { s with
        se := { s.se with timedout := false }
        returning := s.returning.erase begins
        begun := if begins then s.begun + 1 else s.begun }
    else none
  | .handle =>
    match s.begun with
    | begun + 1 => some { s.handleSocketEvent with begun := begun }
    | 0 => none

/-- **The callback is given what has become of the submission:** that it timed out, or was killed, or the error of the
operation; and for a disconnect always this. -/
structure PortReport.Right (r : PortReport) : Prop where
  error : r.error = if r.expired then Errno.etimedout else if r.killed then Errno.ecanceled else r.outcome
  disconnect : r.type = .disconnect → r.error = r.outcome

/-- **Nothing comes late:** an operation that is done at once posts no packet, and a timer that marks the event does not find
a later submission active. -/
def NothingLate (s : PortSystem) : PortAction → Prop
  | .submit _ _ (.done posts) => posts = false
  | .mark timer => s.se.active = true → timer.submission = s.submissions
  | _ => True

instance : ∀ (s : PortSystem) (a : PortAction), Decidable (NothingLate s a)
  | _, .submit _ _ (.done posts) => inferInstanceAs (Decidable (posts = false))
  | s, .mark timer => inferInstanceAs (Decidable (s.se.active = true → timer.submission = s.submissions))
  | _, .submit _ _ (.unbound _) | _, .submit _ _ (.noTimer _) | _, .submit _ _ (.pending _)
  | _, .submit _ _ (.fails _) | _, .kill | _, .expire _ | _, .test _ | _, .packet _ | _, .goOn _
  | _, .handle => isTrue trivial

/-! ### One step -/

/-- What the callback is to be given. -/
def PortSystem.verdict (s : PortSystem) : Errno :=
  if s.expired then Errno.etimedout else if s.killed then Errno.ecanceled else s.outcome

/-- **What is known of an event in every run in which nothing comes late.** -/
structure PortInv (s : PortSystem) : Prop where
  /-- a linked event has one packet, or one thread -/
  token : s.packets + s.returning.length + s.begun = if s.se.arg.isSome then 1 else 0
  begins : ∀ b ∈ s.returning, b = true
  active : s.se.active = true ↔ s.packets = 1
  flags : s.se.flags = { canceled := s.se.active && s.killed }
  timer : s.se.timer = true → s.se.active = true
  waiting : s.se.active = true → s.se.error = 0 ∧ s.se.timedout = s.expired
  disconnect : s.se.arg.isSome = true → s.se.type = .disconnect → s.killed = false ∧ s.expired = false
  error : s.se.arg.isSome = true → s.se.active = false → s.se.error = s.verdict
  asserted : s.asserted = s.unforeseen
  timers : ∀ timer ∈ s.timers, timer.submission ≤ s.submissions ∧
    (timer.tested = true → timer.submission = s.submissions → s.se.arg.isSome = true → s.se.type ≠ .disconnect)
  reports : ∀ r ∈ s.reports, r.Right

section Steps

variable {s s' : PortSystem}

@[simp] theorem PortSystem.check_true (s : PortSystem) : s.check true = s := by
  simp [PortSystem.check]

theorem PortInv.free (h : PortInv s) (harg : s.se.arg = none) :
    s.packets = 0 ∧ s.returning = [] ∧ s.begun = 0 ∧ s.se.active = false ∧ s.se.timer = false := by
  have htoken := h.token
  rw [harg, Option.isSome_none, if_neg Bool.false_ne_true] at htoken
  have hpackets : s.packets = 0 := by omega
  have hactive : s.se.active = false := by
    by_contra hactive
    have := h.active.mp (Bool.not_eq_false _ ▸ hactive)
    omega
  refine ⟨hpackets, List.eq_nil_of_length_eq_zero (by omega), by omega, hactive, ?_⟩
  by_contra htimer
  have := h.timer (Bool.not_eq_false _ ▸ htimer)
  rw [hactive] at this
  cases this

/-- A packet is of a linked event, and nothing else is under way. -/
theorem PortInv.packet (h : PortInv s) {packets : ℕ} (hpackets : s.packets = packets + 1) :
    packets = 0 ∧ s.returning = [] ∧ s.begun = 0 ∧ s.se.arg.isSome = true ∧ s.se.active = true := by
  have htoken := h.token
  have hlinked : s.se.arg.isSome = true := by
    by_contra hlinked
    rw [if_neg hlinked] at htoken
    omega
  rw [if_pos hlinked] at htoken
  exact ⟨by omega, List.eq_nil_of_length_eq_zero (by omega), by omega, hlinked, h.active.mpr (by omega)⟩

/-- So is a thread of `HandleSocketEvent`. -/
theorem PortInv.thread (h : PortInv s) {begun : ℕ} (hbegun : s.begun = begun + 1) :
    begun = 0 ∧ s.returning = [] ∧ s.packets = 0 ∧ (∃ arg, s.se.arg = some arg) ∧ s.se.active = false := by
  have htoken := h.token
  have hlinked : s.se.arg.isSome = true := by
    by_contra hlinked
    rw [if_neg hlinked] at htoken
    omega
  rw [if_pos hlinked] at htoken
  have hinactive : s.se.active = false := Bool.eq_false_iff.mpr fun hactive => by
    have := h.active.mp hactive
    omega
  exact ⟨by omega, List.eq_nil_of_length_eq_zero (by omega), by omega, Option.isSome_iff_exists.mp hlinked, hinactive⟩

/-- An event that is not active has no flags. -/
theorem PortInv.noFlags (h : PortInv s) (hactive : s.se.active = false) : s.se.flags = {} := by
  rw [h.flags, hactive, Bool.false_and]

theorem portInv_start : PortInv {} where
  token := rfl
  begins := nofun
  active := by decide
  flags := rfl
  timer := nofun
  waiting := nofun
  disconnect := nofun
  error := nofun
  asserted := rfl
  timers := nofun
  reports := nofun

/-- What is not foreseen is asserted, and leaves the rest as it is. -/
theorem PortInv.notForeseen (h : PortInv s) : PortInv s.notForeseen where
  token := h.token
  begins := h.begins
  active := h.active
  flags := h.flags
  timer := h.timer
  waiting := h.waiting
  disconnect := h.disconnect
  error := h.error
  asserted := rfl
  timers := h.timers
  reports := h.reports

/-- What a submission of an event that is not linked does. -/
inductive Submits (s : PortSystem) (type : SocketEventType) (cbArg : EventId) (s' : PortSystem) : Prop
  | refused (err : Errno)
      (eq : s' = { s with se := { s.se with type := type, error := err, timedout := false } })
  | unbound (err : Errno)
      (eq : s' = { s with se := { s.se with type := type, error := err, timedout := false } }.notForeseen)
  | pending (timer : Bool)
      (eq : s' = { s.accept with
        se := { type := type, arg := some cbArg, active := true, timer := timer }
        packets := 1 })
  | done
      (eq : s' = { s.accept with
        se := { type := type, arg := some cbArg }
        begun := 1 })

/-- **What a submission does (proved).** -/
theorem submit_cases (h : PortInv s) (harg : s.se.arg = none) {type : SocketEventType} {cbArg : EventId}
    {answer : AddAnswer} (hlate : NothingLate s (.submit type cbArg answer))
    (hstep : s.socketEventWaitEx type cbArg answer = some s') : Submits s type cbArg s' := by
  obtain ⟨hpackets, _, hbegun, hactive, htimer⟩ := h.free harg
  have hflags := h.noFlags hactive
  have hcheck : (s.seLinkCe type cbArg).check (s.seLinkCe type cbArg).se.noFlags = s.seLinkCe type cbArg := by
    rw [show (s.seLinkCe type cbArg).se.noFlags = true from decide_eq_true hflags, PortSystem.check_true]
  obtain ⟨r, hadd, rfl⟩ : ∃ r, (s.seLinkCe type cbArg).sockEventAdd answer = some r ∧ PortSystem.added r = s' := by
    unfold PortSystem.socketEventWaitEx at hstep
    rw [harg] at hstep
    exact Option.map_eq_some_iff.mp hstep
  unfold PortSystem.sockEventAdd at hadd
  rw [hcheck] at hadd
  obtain ⟨⟨type₀, arg, active, flags, timer, timedout, error⟩, packets, _, begun, _, _, _, _, _, _, asserted, _⟩ := s
  dsimp only at harg hpackets hbegun hactive htimer hflags
  subst harg hpackets hbegun hactive htimer hflags
  cases answer with
  | unbound err =>
    cases hadd
    exact .unbound err rfl
  | noTimer err | fails err =>
    cases hadd
    exact .refused err rfl
  | pending timer =>
    cases hadd
    rw [← Bool.or_false timer]
    exact .pending _ rfl
  | done posts =>
    obtain rfl : posts = false := hlate
    obtain ⟨_, hadd⟩ := Option.ite_none_left_eq_some.mp hadd
    cases hadd
    refine .done ?_
    cases asserted <;> rfl

/-- A submission keeps the invariant. -/
theorem submit_inv (h : PortInv s) {type : SocketEventType} {cbArg : EventId} {answer : AddAnswer}
    (hlate : NothingLate s (.submit type cbArg answer)) (hstep : s.socketEventWaitEx type cbArg answer = some s') :
    PortInv s' := by
  cases harg : s.se.arg with
  | some arg =>
    unfold PortSystem.socketEventWaitEx at hstep
    rw [harg] at hstep
    cases hstep
    exact h.notForeseen
  | none =>
    obtain ⟨hpackets, hreturning, hbegun, hactive, htimer⟩ := h.free harg
    have hflags := h.noFlags hactive
    -- the timers are those of earlier submissions
    have htimers : ∀ timer ∈ s.timers, timer.submission < s.accept.submissions := fun timer ht =>
      Nat.lt_succ_of_le (h.timers timer ht).1
    have hrefused : ∀ err, PortInv { s with se := { s.se with type := type, error := err, timedout := false } } :=
      fun err => {
        token := h.token
        begins := h.begins
        active := h.active
        flags := h.flags
        timer := h.timer
        waiting := fun hact => absurd hact (by simp [hactive])
        disconnect := fun hlinked => absurd hlinked (by simp [harg])
        error := fun hlinked => absurd hlinked (by simp [harg])
        asserted := h.asserted
        timers := fun timer ht => ⟨(h.timers timer ht).1, fun _ _ hlinked => absurd hlinked (by simp [harg])⟩
        reports := h.reports }
    obtain ⟨err, rfl⟩ | ⟨err, rfl⟩ | ⟨timer, rfl⟩ | rfl := submit_cases h harg hlate hstep
    · exact hrefused err
    · exact (hrefused err).notForeseen
    · exact {
        token := by simp [PortSystem.accept, hreturning, hbegun]
        begins := h.begins
        active := by simp
        flags := rfl
        timer := fun _ => rfl
        waiting := fun _ => ⟨rfl, rfl⟩
        disconnect := fun _ _ => ⟨rfl, rfl⟩
        error := nofun
        asserted := h.asserted
        timers := fun timer ht => ⟨Nat.le_of_lt (htimers timer ht), fun _ heq => absurd heq (Nat.ne_of_lt (htimers timer ht))⟩
        reports := h.reports }
    · exact {
        token := by simp [PortSystem.accept, hreturning, hpackets]
        begins := h.begins
        active := by simp [PortSystem.accept, hpackets]
        flags := rfl
        timer := nofun
        waiting := nofun
        disconnect := fun _ _ => ⟨rfl, rfl⟩
        error := fun _ _ => rfl
        asserted := h.asserted
        timers := fun timer ht => ⟨Nat.le_of_lt (htimers timer ht), fun _ heq => absurd heq (Nat.ne_of_lt (htimers timer ht))⟩
        reports := h.reports }

/-- The operation is in the kernel as long as the event is active. -/
theorem PortInv.inKernel_iff (h : PortInv s) :
    s.inKernel = true ↔ s.se.active = true ∧ s.se.type ≠ .disconnect := by
  have htoken := h.token
  have hone : s.packets ≠ 0 ↔ s.packets = 1 := by
    split at htoken <;> omega
  rw [PortSystem.inKernel, decide_eq_true_iff, hone, h.active]

/-- A kill marks an operation that is in the kernel, and does nothing otherwise. -/
theorem sockEventKill_eq (h : PortInv s) : s.sockEventKill =
    { s with se := { s.se with flags := { canceled := s.se.active && (s.killed || s.inKernel) } } } := by
  unfold PortSystem.sockEventKill
  simp only [← h.inKernel_iff]
  cases hin : s.inKernel with
  | false =>
    rw [Bool.or_false, ← h.flags]
    rfl
  | true =>
    have hactive := (h.inKernel_iff.mp hin).1
    have hflags := h.flags
    rw [if_pos rfl, Bool.or_true, Bool.and_true]
    by_cases hkilled : s.killed = true
    · rw [hkilled, Bool.and_true] at hflags
      rw [if_neg (by rw [hflags, hactive]; nofun), ← hflags]
    · rw [Bool.eq_false_iff.mpr hkilled, Bool.and_false] at hflags
      rw [if_pos (by rw [hflags]; exact ⟨rfl, rfl⟩), hflags, hactive]

/-- A kill keeps the invariant. -/
theorem kill_inv (h : PortInv s) : PortInv { s.sockEventKill with killed := s.killed || s.inKernel } := by
  rw [sockEventKill_eq h]
  exact {
    token := h.token
    begins := h.begins
    active := h.active
    flags := rfl
    timer := h.timer
    waiting := h.waiting
    disconnect := fun hlinked hdisconnect => by
      obtain ⟨hkilled, hexpired⟩ := h.disconnect hlinked hdisconnect
      refine ⟨?_, hexpired⟩
      rw [hkilled, Bool.false_or]
      exact Bool.eq_false_iff.mpr fun hin => (h.inKernel_iff.mp hin).2 hdisconnect
    error := fun hlinked hactive => by
      have hout : s.inKernel = false := Bool.eq_false_iff.mpr fun hin => by
        rw [(h.inKernel_iff.mp hin).1] at hactive
        cases hactive
      rw [hout, Bool.or_false]
      exact h.error hlinked hactive
    asserted := h.asserted
    timers := h.timers
    reports := h.reports }

/-- A timer that runs out keeps the invariant. -/
theorem expire_inv (h : PortInv s) (starts : Bool) : PortInv (s.timerCallback starts) := by
  have hunlinked : ∀ u : PortSystem, PortInv u →
      PortInv { u with se := { u.se with timer := false }, timers := ⟨u.submissions, false⟩ :: u.timers } :=
    fun u hu => {
      token := hu.token
      begins := hu.begins
      active := hu.active
      flags := hu.flags
      timer := nofun
      waiting := hu.waiting
      disconnect := hu.disconnect
      error := hu.error
      asserted := hu.asserted
      timers := List.forall_mem_cons.mpr ⟨⟨Nat.le_refl _, nofun⟩, hu.timers⟩
      reports := hu.reports }
  cases starts with
  | true => exact hunlinked s h
  | false => exact hunlinked s.notForeseen h.notForeseen

/-- The test of a timer keeps the invariant. -/
theorem test_inv (h : PortInv s) {timer : TimerCallback} (hin : timer ∈ s.timers) :
    PortInv { s with timers :=
      if s.timesOut then { timer with tested := true } :: s.timers.erase timer else s.timers.erase timer } := by
  have hrest : ∀ cb ∈ s.timers.erase timer, cb ∈ s.timers := fun _ hcb => List.mem_of_mem_erase hcb
  refine { h with timers := ?_ }
  split
  next hactive =>
    have htype := (of_decide_eq_true hactive).2
    exact List.forall_mem_cons.mpr ⟨⟨(h.timers timer hin).1, fun _ _ _ => htype⟩, fun cb hcb => h.timers cb (hrest cb hcb)⟩
  next => exact fun cb hcb => h.timers cb (hrest cb hcb)

/-- A timer that marks the event keeps the invariant: the submission is its own, or no operation is in the kernel. -/
theorem mark_inv (h : PortInv s) {timer : TimerCallback} (hin : timer ∈ s.timers) (htested : timer.tested = true)
    (hlate : s.se.active = true → timer.submission = s.submissions) :
    PortInv { s.eventTimeout with
      timers := s.timers.erase timer
      expired := s.expired || (s.inKernel && timer.submission = s.submissions) } := by
  have hlinked : s.se.active = true → s.se.arg.isSome = true := fun hactive =>
    (h.packet (h.active.mp hactive)).2.2.2.1
  have hinkernel : s.se.active = true → s.inKernel = true := fun hactive =>
    h.inKernel_iff.mpr ⟨hactive, (h.timers timer hin).2 htested (hlate hactive) (hlinked hactive)⟩
  have hout : s.se.active = false → s.inKernel = false := fun hactive => Bool.eq_false_iff.mpr fun hkernel => by
    rw [(h.inKernel_iff.mp hkernel).1] at hactive
    cases hactive
  exact {
    token := h.token
    begins := h.begins
    active := h.active
    flags := h.flags
    timer := nofun
    waiting := fun hactive => by
      refine ⟨(h.waiting hactive).1, ?_⟩
      simp only [hinkernel hactive, hlate hactive, decide_true, Bool.and_true, Bool.or_true, PortSystem.eventTimeout]
    disconnect := fun hlinked hdisconnect => by
      obtain ⟨hkilled, hexpired⟩ := h.disconnect hlinked hdisconnect
      refine ⟨hkilled, ?_⟩
      have hkernel : s.inKernel = false := Bool.eq_false_iff.mpr fun hkernel => (h.inKernel_iff.mp hkernel).2 hdisconnect
      rw [hexpired, hkernel]
      rfl
    error := fun hlinked hactive => by
      rw [hout hactive, Bool.false_and, Bool.or_false]
      exact h.error hlinked hactive
    asserted := h.asserted
    timers := fun cb hcb => h.timers cb (List.mem_of_mem_erase hcb)
    reports := h.reports }

/-- A packet of an operation that was killed says so. -/
theorem settle_eq (h : PortInv s) (hactive : s.se.active = true) (err : Errno) :
    s.settle err =
      { s with se := { s.se with flags := {}, error := if s.killed then Errno.ecanceled else err } } := by
  obtain ⟨herror, _⟩ := h.waiting hactive
  have hflags := h.flags
  rw [hactive, Bool.true_and] at hflags
  unfold PortSystem.settle
  by_cases hkilled : s.killed = true
  · rw [hkilled] at hflags
    rw [if_pos hflags, if_pos hkilled]
  · rw [Bool.eq_false_iff.mpr hkilled] at hflags
    rw [if_neg (by rw [hflags]; decide), if_neg (by rw [hflags]; decide), if_neg hkilled, ← hflags]
    split
    · rfl
    next hzero =>
      obtain rfl : err = 0 := not_not.mp hzero
      rw [← herror]

/-- **What `_IOCPThread` does with a packet (proved).** -/
theorem takePacket_eq (h : PortInv s) (hactive : s.se.active = true) (err : Errno) :
    s.takePacket err =
      { s with
        se := { s.se with active := false, flags := {}, timer := false, error := { s with outcome := err }.verdict }
        returning := true :: s.returning } := by
  obtain ⟨_, htimedout⟩ := h.waiting hactive
  unfold PortSystem.takePacket
  rw [if_pos hactive, settle_eq h hactive]
  unfold PortSystem.timerKill PortSystem.verdict
  rw [htimedout]
  simp [PortSystem.check, PortEvent.noFlags]

/-- A packet keeps the invariant. -/
theorem packet_inv (h : PortInv s) {packets : ℕ} (hpackets : s.packets = packets + 1) (err : Errno) :
    PortInv { s.takePacket err with packets := packets, outcome := err } := by
  obtain ⟨rfl, hreturning, hbegun, hlinked, hactive⟩ := h.packet hpackets
  rw [takePacket_eq h hactive]
  exact {
    token := by simp [hlinked, hreturning, hbegun]
    begins := by simp [hreturning]
    active := by simp
    flags := rfl
    timer := nofun
    waiting := nofun
    disconnect := h.disconnect
    error := fun _ _ => rfl
    asserted := h.asserted
    timers := h.timers
    reports := h.reports }

/-- A thread that goes on keeps the invariant, and begins `HandleSocketEvent`. -/
theorem goOn_inv (h : PortInv s) {begins : Bool} (hin : begins ∈ s.returning) :
    PortInv { s with
      se := { s.se with timedout := false }
      returning := s.returning.erase begins
      begun := if begins then s.begun + 1 else s.begun } := by
  obtain rfl : begins = true := h.begins begins hin
  have hlength := List.length_erase_of_mem hin
  have hpos : 0 < s.returning.length := List.length_pos_of_mem hin
  have htoken := h.token
  have hpackets : s.packets = 0 := by
    split at htoken <;> omega
  have hinactive : ¬s.se.active = true := fun hactive => by
    have := h.active.mp hactive
    omega
  exact {
    token := by
      show s.packets + (s.returning.erase true).length + (s.begun + 1) = _
      rw [hlength, ← htoken]
      omega
    begins := fun b hb => h.begins b (List.mem_of_mem_erase hb)
    active := h.active
    flags := h.flags
    timer := h.timer
    waiting := fun hactive => absurd hactive hinactive
    disconnect := h.disconnect
    error := h.error
    asserted := h.asserted
    timers := h.timers
    reports := h.reports }

/-- A callback keeps the invariant, and is right. -/
theorem handle_inv (h : PortInv s) {begun : ℕ} (hbegun : s.begun = begun + 1) :
    PortInv { s.handleSocketEvent with begun := begun } := by
  obtain ⟨rfl, hreturning, hpackets, ⟨arg, harg⟩, hinactive⟩ := h.thread hbegun
  have hlinked : s.se.arg.isSome = true := Option.isSome_iff_exists.mpr ⟨arg, harg⟩
  have herror := h.error hlinked hinactive
  unfold PortSystem.handleSocketEvent
  rw [harg]
  exact {
    token := by simp [PortSystem.seUnlinkCe, hpackets, hreturning]
    begins := h.begins
    active := h.active
    flags := h.flags
    timer := h.timer
    waiting := h.waiting
    disconnect := nofun
    error := nofun
    asserted := h.asserted
    timers := fun timer ht => ⟨(h.timers timer ht).1, fun _ _ hlinked => by cases hlinked⟩
    reports := fun r hr => by
      obtain hr | hr := List.mem_append.mp hr
      · exact h.reports r hr
      · obtain rfl := List.mem_singleton.mp hr
        refine ⟨herror, fun hdisconnect => ?_⟩
        obtain ⟨hkilled, hexpired⟩ := h.disconnect hlinked hdisconnect
        show s.se.error = s.outcome
        rw [herror, PortSystem.verdict, hkilled, hexpired]
        rfl }

/-- **The step lemma (proved).** -/
theorem portStep_inv {a : PortAction} (h : PortInv s) (hlate : NothingLate s a) (hstep : portStep s a = some s') :
    PortInv s' := by
  cases a with
  | submit type cbArg answer =>
    obtain ⟨_, hstep⟩ := Option.ite_none_left_eq_some.mp hstep
    exact submit_inv h hlate hstep
  | kill =>
    cases hstep
    exact kill_inv h
  | expire starts =>
    obtain ⟨_, heq⟩ := Option.ite_none_right_eq_some.mp hstep
    cases heq
    exact expire_inv h starts
  | test timer =>
    obtain ⟨⟨hin, _⟩, heq⟩ := Option.ite_none_right_eq_some.mp hstep
    cases heq
    exact test_inv h hin
  | mark timer =>
    obtain ⟨⟨hin, htested⟩, heq⟩ := Option.ite_none_right_eq_some.mp hstep
    cases heq
    exact mark_inv h hin htested hlate
  | packet err =>
    simp only [portStep] at hstep
    split at hstep
    next packets hpackets =>
      cases hstep
      exact packet_inv h hpackets err
    next => cases hstep
  | goOn begins =>
    obtain ⟨hin, heq⟩ := Option.ite_none_right_eq_some.mp hstep
    cases heq
    exact goOn_inv h hin
  | handle =>
    simp only [portStep] at hstep
    split at hstep
    next begun hbegun =>
      cases hstep
      exact handle_inv h hbegun
    next => cases hstep

end Steps

/-! ### The port as a service -/

/-- The submission that has not been reported, and whether its operation has ended. -/
def PortSystem.current (s : PortSystem) : Option (ℕ × Bool) :=
  if s.se.arg.isSome then some (s.submissions, !s.se.active) else none

/-- **The port serves its event as the service does.** -/
def PortServes (s : PortSystem) (u : Service ℕ Errno) : Prop :=
  u.Shows s.current s.submissions (s.reports.map fun r => (r.submission, r.error))

section Serves

variable {s s' : PortSystem} {u : Service ℕ Errno}

theorem PortServes.same (h : PortServes s u) (hcurrent : s'.current = s.current) (hsub : s'.submissions = s.submissions)
    (hreports : s'.reports = s.reports) : ∃ v, Reachable (enabled serviceStep) u v ∧ PortServes s' v := by
  refine ⟨u, .init, ?_⟩
  unfold PortServes
  rw [hcurrent, hsub, hreports]
  exact h

/-- A submission is accepted, and perhaps its operation has ended. -/
theorem PortServes.submit (h : PortServes s u) (hs : PortInv s) {type : SocketEventType} {cbArg : EventId}
    {answer : AddAnswer} (hlate : NothingLate s (.submit type cbArg answer))
    (hstep : s.socketEventWaitEx type cbArg answer = some s') :
    ∃ v, Reachable (enabled serviceStep) u v ∧ PortServes s' v := by
  cases harg : s.se.arg with
  | some arg =>
    unfold PortSystem.socketEventWaitEx at hstep
    rw [harg] at hstep
    cases hstep
    exact ⟨u, .init, h⟩
  | none =>
    have hfree : s.current = none := by
      unfold PortSystem.current
      rw [harg]
      rfl
    have hrefused : ∀ err, PortSystem.current { s with se := { s.se with type := type, error := err, timedout := false } } =
        s.current := fun err => by
      rw [hfree, PortSystem.current, harg]
      rfl
    obtain ⟨err, rfl⟩ | ⟨err, rfl⟩ | ⟨timer, rfl⟩ | rfl := submit_cases hs harg hlate hstep
    · exact h.same (hrefused err) rfl rfl
    · exact h.same (hrefused err) rfl rfl
    · unfold PortServes at h
      rw [hfree] at h
      exact h.accept
    · unfold PortServes at h
      rw [hfree] at h
      obtain ⟨v, hv, h⟩ := h.accept
      obtain ⟨w, hw, h⟩ := h.finish
      exact ⟨w, hv.trans hw, h⟩

/-- **A step is nothing for the service, or some of its steps (proved).** -/
theorem PortServes.step {a : PortAction} (h : PortServes s u) (hs : PortInv s) (hlate : NothingLate s a)
    (hstep : portStep s a = some s') : ∃ v, Reachable (enabled serviceStep) u v ∧ PortServes s' v := by
  cases a with
  | submit type cbArg answer =>
    obtain ⟨_, hstep⟩ := Option.ite_none_left_eq_some.mp hstep
    exact h.submit hs hlate hstep
  | kill =>
    cases hstep
    rw [sockEventKill_eq hs]
    exact h.same rfl rfl rfl
  | expire starts =>
    obtain ⟨_, heq⟩ := Option.ite_none_right_eq_some.mp hstep
    cases heq
    cases starts <;> exact h.same rfl rfl rfl
  | test timer | mark timer =>
    obtain ⟨_, heq⟩ := Option.ite_none_right_eq_some.mp hstep
    cases heq
    exact h.same rfl rfl rfl
  | packet err =>
    simp only [portStep] at hstep
    split at hstep
    next packets hpackets =>
      obtain ⟨_, _, _, hlinked, hactive⟩ := hs.packet hpackets
      have hbefore : s.current = some (s.submissions, false) := by
        rw [PortSystem.current, if_pos hlinked, hactive]
        rfl
      unfold PortServes at h
      rw [hbefore] at h
      cases hstep
      rw [takePacket_eq hs hactive]
      unfold PortServes PortSystem.current
      rw [if_pos hlinked]
      exact h.finish
    next => cases hstep
  | goOn begins =>
    obtain ⟨_, heq⟩ := Option.ite_none_right_eq_some.mp hstep
    cases heq
    exact h.same rfl rfl rfl
  | handle =>
    simp only [portStep] at hstep
    split at hstep
    next begun hbegun =>
      obtain ⟨_, _, _, ⟨arg, harg⟩, hinactive⟩ := hs.thread hbegun
      have hbefore : s.current = some (s.submissions, true) := by
        rw [PortSystem.current, harg, hinactive]
        rfl
      unfold PortServes at h
      rw [hbefore] at h
      cases hstep
      unfold PortSystem.handleSocketEvent
      rw [harg]
      unfold PortServes
      rw [List.map_append]
      exact h.report s.se.error
    next => cases hstep

/-- **The completion port is a service (proved),** whatever the threads do and whatever the operations end with, as long as
nothing comes late: an assertion fails only on what the source does not foresee, each submission is reported once and in
order, and each callback is given what has become of it. -/
theorem reachable_port (h : ReachableVia (enabled portStep) NothingLate {} s) :
    s.asserted = s.unforeseen ∧ (∀ r ∈ s.reports, r.Right) ∧
      (∃ u : Service ℕ Errno, Reachable (enabled serviceStep) {} u ∧ PortServes s u) ∧
        s.reports.map PortReport.submission ++ (s.current.map Prod.fst).toList = List.range' 1 s.submissions := by
  have hsim : ∃ u : Service ℕ Errno, Reachable (enabled serviceStep) {} u ∧ PortInv s ∧ PortServes s u := by
    refine h.simulateRel (R := fun s u => PortInv s ∧ PortServes s u) (fun s a s' u hu hlate hstep => ?_)
      ⟨portInv_start, .start⟩
    obtain ⟨hinv, hserves⟩ := hu
    obtain ⟨v, hv, hserves⟩ := hserves.step hinv hlate hstep
    exact ⟨v, hv, portStep_inv hinv hlate hstep, hserves⟩
  obtain ⟨u, hu, hinv, hserves⟩ := hsim
  have hbooks := hserves.books hu
  rw [List.map_map] at hbooks
  exact ⟨hinv.asserted, hinv.reports, ⟨u, hu, hserves⟩, hbooks⟩

end Serves

/-- A read that is killed and times out, and then a connect that is done at once and a disconnect that cannot be killed. -/
theorem reachable_port_three : ∃ s : PortSystem,
    s.reports.map (fun r => (r.type, r.error)) =
      [(.readable, Errno.etimedout), (.connect, 0), (.disconnect, 0)] ∧
    s.asserted = s.unforeseen ∧ (∀ r ∈ s.reports, r.Right) ∧
      (∃ u : Service ℕ Errno, Reachable (enabled serviceStep) {} u ∧ PortServes s u) ∧
        s.reports.map PortReport.submission ++ (s.current.map Prod.fst).toList = List.range' 1 s.submissions := by
  obtain ⟨s, hrun, hreports⟩ : ∃ s, runFrom (guarded NothingLate portStep) {}
      [.submit .readable 7 (.pending true), .kill, .expire true, .test ⟨1, false⟩, .mark ⟨1, true⟩, .packet Errno.eio,
        .goOn true, .handle, .submit .connect 8 (.done false), .handle, .submit .disconnect 9 (.pending true), .kill,
        .packet 0, .goOn true, .handle] = some s ∧
      s.reports.map (fun r => (r.type, r.error)) = [(.readable, Errno.etimedout), (.connect, 0), (.disconnect, 0)] :=
    ⟨_, rfl, by decide⟩
  exact ⟨s, hreports, reachable_port (reachableVia_of_runFrom hrun)⟩

/-- **A packet that comes out late fails an assertion (proved),** wherever the operation was started. -/
theorem port_fails {s : PortSystem} (h : ReachableVia (enabled portStep) NothingLate {} s) (harg : s.se.arg = none)
    {type : SocketEventType} (htype : type = .connect ∨ type = .disconnect) (cbArg : EventId) (err : Errno) :
    ∃ s' s'', portStep s (.submit type cbArg (.done true)) = some s' ∧ portStep s' (.packet err) = some s'' ∧
      s''.asserted = true := by
  have hinv : PortInv s := h.invariant portInv_start fun _ _ _ hs hlate hstep => portStep_inv hs hlate hstep
  obtain ⟨hpackets, _, _, hactive, _⟩ := hinv.free harg
  have hflags := hinv.noFlags hactive
  obtain ⟨⟨type₀, arg, active, flags, timer, timedout, error⟩, packets, _, _, _, _, _, _, _, _, _, _⟩ := s
  dsimp only at harg hpackets hactive hflags
  subst harg hpackets hactive hflags
  obtain rfl | rfl := htype
  · exact ⟨_, _, rfl, rfl, Bool.or_true _⟩
  · exact ⟨_, _, rfl, rfl, Bool.or_true _⟩

/-- The packet of an event that a timer has marked says so, whatever the operation has ended with. -/
theorem takePacket_marked {s : PortSystem} (hactive : s.se.active = true) (htimedout : s.se.timedout = true) (err : Errno) :
    (s.takePacket err).se.error = Errno.etimedout ∧ (s.takePacket err).expired = s.expired := by
  have hsettle : (s.settle err).se.timedout = true ∧ (s.settle err).expired = s.expired := by
    unfold PortSystem.settle
    split
    · exact ⟨htimedout, rfl⟩
    split
    · exact ⟨htimedout, rfl⟩
    split <;> exact ⟨htimedout, rfl⟩
  unfold PortSystem.takePacket
  rw [if_pos hactive]
  exact ⟨if_pos hsettle.1, hsettle.2⟩

/-- **A timer that marks a later submission times it out (proved),** whatever its operation ends with: its callback will be
given `ETIMEDOUT` although its own timer has not run out. -/
theorem mark_fails {s : PortSystem} (h : ReachableVia (enabled portStep) NothingLate {} s) (hactive : s.se.active = true)
    (hexpired : s.expired = false) {timer : TimerCallback} (hin : timer ∈ s.timers) (htested : timer.tested = true)
    (hlate : timer.submission ≠ s.submissions) (err : Errno) :
    ∃ s' s'', portStep s (.mark timer) = some s' ∧ portStep s' (.packet err) = some s'' ∧
      s''.se.error = Errno.etimedout ∧ s''.expired = false := by
  have hinv : PortInv s := h.invariant portInv_start fun _ _ _ hs hlate hstep => portStep_inv hs hlate hstep
  obtain ⟨s', hmark, hpackets, hactive', htimedout, hexpired'⟩ : ∃ s', portStep s (.mark timer) = some s' ∧
      s'.packets = 1 ∧ s'.se.active = true ∧ s'.se.timedout = true ∧ s'.expired = false :=
    ⟨_, if_pos ⟨hin, htested⟩, hinv.active.mp hactive, hactive, rfl, by simp [hexpired, hlate]⟩
  obtain ⟨herror, hkept⟩ := takePacket_marked hactive' htimedout err
  refine ⟨s', { s'.takePacket err with packets := 0, outcome := err }, hmark, ?_, herror, hkept.trans hexpired'⟩
  simp only [portStep]
  rw [hpackets]

end Connio.Port
