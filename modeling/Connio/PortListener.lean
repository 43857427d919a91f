import Connio.Lib.Service
import Connio.Throttle

/-!
# A listener on the completion port

On Windows a listener has an `AcceptEx` under way, with a socket for the next connection (`sockwin.c`, `sockcommon.c`).  The
thread that takes its packet hands the socket over and starts the next one, unless the listener pauses or has to end.

* `PortListener`, `listenStep` — the listener with its sockets and threads, and one hold of `slock`;
* `acceptNext`, `submit`, `packet`, `handle`, `kill` — the functions of the source;
* `ListenInv`, `listenStep_inv` — **PROVED**: one place has a listener that is linked, and each socket is in one place;
* `reachable_listener` — **PROVED**: so it is in every run, no NULL listener is used, and each submission is called back once,
  in order, unless the listener is freed before the thread that has put it back has told its owner;
* `notify_fails` — **PROVED**: that thread then uses a NULL listener.

`DebugAssert`s and the callbacks that notify the owner are left out, but for the one that is made without the lock, and what
`Throttle` says of epoll.
-/

namespace Connio.Port

open Connio.Lib

/-! ### The listener -/

structure PortListener where
  /-- its `armed`, `reported` and `inEngine` are those of epoll, and not used -/
  sock : ListenerSOCK
  /-- `cb.arg` is not NULL -/
  linked : Bool := false
  /-- `IOCP_EVENT_STATE_WAIT_ACTIVE` -/
  active : Bool := false
  /-- the packet of `AcceptEx` has not come out of the port -/
  accepting : Bool := false
  /-- `CancelIoEx` has been called for this `AcceptEx` -/
  cancelled : Bool := false
  /-- `se->acceptSocket`, by the number of its creation; `none` is `SOCKET_INVALID` -/
  acceptSocket : Option ℕ := none
  /-- threads that have put the listener back and released `slock`, before the test of `listener->eventCallback` -/
  testing : ℕ := 0
  /-- those that have found one, before they read it again for the call -/
  calling : ℕ := 0
  /-- the sockets that `socCreate` has created, those given to an `AcceptEvent`, and those closed -/
  created : ℕ := 0
  handed : List ℕ := []
  closed : List ℕ := []
  /-- sockets that nobody refers to; no modelled function reads it -/
  abandoned : List ℕ := []
  /-- the calls of `SocketEventWaitEx` that returned 0 -/
  submissions : ℕ := 0
  /-- the submissions that `HandleSocketEvent` has unlinked, with the error that it gives to the callback -/
  reports : List (ℕ × Errno) := []
  /-- a NULL listener has been used, or an event unlinked that is not linked -/
  crashed : Bool := false
  deriving DecidableEq, Repr

/-- What `acceptNext` meets. -/
inductive AcceptAnswer where
  /-- `socCreate` fails -/
  | noSocket (err : Errno)
  /-- `AcceptEx` is under way -/
  | pending
  | fails (err : Errno)
  deriving DecidableEq, Repr

/-- What `SocketEventWaitEx` meets: memory for the `AsyncListener`, a valid socket, the errno of
`CreateIoCompletionPort`. -/
structure SubmitAnswers where
  throttlingThreshold : ℕ
  memory : Bool
  socket : Bool
  bindErr : Errno
  accept : AcceptAnswer
  deriving DecidableEq, Repr

/-- What `_IOCPThread` meets. -/
structure PacketAnswers where
  /-- the result of `GetQueuedCompletionStatus` -/
  resultOk : Bool
  acceptEvent : Bool
  /-- what `AThreadCountRead` and `AThreadCountUpdate` answer -/
  read : ℕ
  count : ℕ
  accept : AcceptAnswer
  deriving DecidableEq, Repr

namespace PortListener

variable (s : PortListener)

def setError (err : Errno) : PortListener := { s with sock := { s.sock with error := err } }

/-- A thread of `HandleSocketEvent` is begun. -/
def begin : PortListener := { s with sock := { s.sock with begun := s.sock.begun + 1 } }

/-- `acceptNext`; its result is stored in `se->error`. -/
def acceptNext : AcceptAnswer → PortListener
  | .noSocket err => { s with acceptSocket := none }.setError err
  | .pending =>
    { s with acceptSocket := some s.created, created := s.created + 1, accepting := true, cancelled := false }.setError 0
  | .fails err =>
    { s with
      acceptSocket := some s.created
      created := s.created + 1
      abandoned := s.abandoned ++ [s.created] }.setError err

/-- A submission has been accepted. -/
def submitted (throttlingThreshold : ℕ) : PortListener :=
  { s with
    sock := { s.sock with listener := some { throttlingThreshold := throttlingThreshold } }
    linked := true
    active := true
    submissions := s.submissions + 1 }

/-- `SocketEventWaitEx` and `sockEventAdd` for `SOCK_EVENT_TYPE_LISTEN`; the `AsyncListener` of a submission that fails
is freed again. -/
def submit (a : SubmitAnswers) : PortListener :=
  -- ECONNABORTED, ENOMEM, ENOTSOCK and EBUSY
  if s.sock.flags.killed ∨ a.memory = false ∨ a.socket = false ∨ s.linked then s
  else if a.bindErr ≠ 0 then s.setError a.bindErr
  else if s.active then s.setError 0
  else if (s.acceptNext a.accept).sock.error = 0 then (s.acceptNext a.accept).submitted a.throttlingThreshold
  else s.acceptNext a.accept

/-- The socket of a connection goes to an `AcceptEvent`; without one it is closed. -/
def handOver (acceptEvent : Bool) : PortListener :=
  if acceptEvent then
    { s with
      handed := s.handed ++ s.acceptSocket.toList
      sock := acceptReady s.sock true
      crashed := s.crashed || s.sock.listener.isNone }
  else
    { s with
      closed := s.closed ++ s.acceptSocket.toList
      acceptSocket := none
      sock := acceptReady s.sock false }

/-- The listener has left the engine. -/
def leave : PortListener := { s with active := false }.begin

/-- After a connection the listener pauses, or the next `AcceptEx` is started. -/
def goOn (a : PacketAnswers) : PortListener :=
  if listenerShouldThrottle s.sock a.read ∧ (listenerStartThrottling s.sock a.count).1 then
    { s with sock := (listenerStartThrottling s.sock a.count).2 }.begin
  else if (s.acceptNext a.accept).sock.error = 0 then s.acceptNext a.accept
  else (s.acceptNext a.accept).leave

/-- What `_IOCPThread` does with a packet under `slock`. -/
def packet (a : PacketAnswers) : PortListener :=
  let s := { s with accepting := false, cancelled := false }
  if s.active then
    if a.resultOk ∧ s.sock.flags ≠ { killed := true } then (s.handOver a.acceptEvent).goOn a
    else { s with abandoned := s.abandoned ++ s.acceptSocket.toList }.leave
  else s

/-- `sockEventListenerRequeue`, and `AThreadBegin` when it fails; when it succeeds the owner is to be told. -/
def requeue (answer : AcceptAnswer) : PortListener :=
  let s := { s with sock := s.sock.unpause }.acceptNext answer
  if s.sock.error = 0 then { s with testing := s.testing + 1 } else s.begin

/-- A round of `listenerSpinWhileThrottling`. -/
def spin (count : ℕ) (answer : AcceptAnswer) : PortListener :=
  let spinning := { s with sock := { s.sock with spinning := s.sock.spinning + 1 } }
  if s.sock.flags.killed then s.requeue answer
  else if s.sock.flags.suspended then spinning
  else
    match s.sock.listener with
    | some l => if listenerThresholdExceeded l count then spinning else s.requeue answer
    | none => { s with crashed := true }

/-- `HandleSocketEvent` takes the lock; a listener that ends waits for the accept callbacks. -/
def handle (count : ℕ) (answer : AcceptAnswer) : PortListener :=
  if listenerThrottling s.sock then s.spin count answer
  else
    { s with
      sock := { s.sock with waiting := s.sock.waiting + 1 }
      linked := false
      reports := s.reports ++ [(s.submissions, s.sock.error)]
      crashed := s.crashed || !s.linked }

/-- `SocketEventKill` -/
def kill : PortListener :=
  let s := { s with sock := (socketListenerResume s.sock).2 }
  if s.active then
    { s with
      sock := { s.sock with flags := { s.sock.flags with killed := true } }
      cancelled := s.accepting }
  else s

end PortListener

inductive ListenAction where
  | submit (a : SubmitAnswers)
  /-- `GetQueuedCompletionStatus` -/
  | packet (a : PacketAnswers)
  /-- a thread enters `HandleSocketEvent` -/
  | handle (count : ℕ) (answer : AcceptAnswer)
  /-- the delay of a spinning thread is over -/
  | spin (count : ℕ) (answer : AcceptAnswer)
  /-- a thread that has put the listener back tests `listener->eventCallback` -/
  | notify (calls : Bool)
  /-- it calls it -/
  | call
  /-- a thread finds that the accept callbacks have returned, frees the listener, and calls back -/
  | release
  /-- `acceptPickup` ends -/
  | acceptDone
  | suspend
  | resume
  | kill
  deriving DecidableEq, Repr

/-- **One step;** `none` when the action is not enabled. -/
def listenStep (s : PortListener) : ListenAction → Option PortListener
  -- callers submit no second listener: `DebugAssert( NULL == cs->listener )`
  | .submit a => if s.sock.listener = none then some (s.submit a) else none
  | .packet a => if s.accepting then some (s.packet a) else none
  | .handle count answer =>
    if 0 < s.sock.begun then some ({ s with sock := { s.sock with begun := s.sock.begun - 1 } }.handle count answer)
    else none
  | .spin count answer =>
    if 0 < s.sock.spinning then
      some ({ s with sock := { s.sock with spinning := s.sock.spinning - 1 } }.spin count answer)
    else none
  | .notify calls =>
    if 0 < s.testing then
      some { s with
        testing := s.testing - 1
        calling := if calls then s.calling + 1 else s.calling
        crashed := s.crashed || s.sock.listener.isNone }
    else none
  | .call =>
    if 0 < s.calling then
      some { s with calling := s.calling - 1, crashed := s.crashed || s.sock.listener.isNone }
    else none
  | .release =>
    if 0 < s.sock.waiting ∧ s.sock.listener.all fun l => decide (l.inAccept < 1) then
      some { s with
        sock := { s.sock with waiting := s.sock.waiting - 1, listener := none }
        crashed := s.crashed || s.sock.listener.isNone }
    else none
  | .acceptDone =>
    s.sock.listener.bind fun l =>
      if 0 < l.inAccept then
        some { s with sock := { s.sock with listener := some { l with inAccept := l.inAccept - 1 } } }
      else none
  | .suspend => some { s with sock := (socketListenerSuspend s.sock).2 }
  | .resume => some { s with sock := (socketListenerResume s.sock).2 }
  | .kill => some s.kill

/-- A listening `SOCK` that `ConnAListenEx` has just allocated. -/
def PortListener.new : PortListener where
  sock := { listener := none, flags := {} }

/-- What `acceptNext` meets in a step. -/
def ListenAction.accept? : ListenAction → Option AcceptAnswer
  | submit a => some a.accept
  | packet a => some a.accept
  | handle _ answer | spin _ answer => some answer
  | _ => none

/-- **An `acceptNext` that fails has an error,** and no listener is freed before the threads that have put it back have told
its owner. -/
def Orderly (s : PortListener) (a : ListenAction) : Prop :=
  (∀ answer ∈ a.accept?, answer ≠ .noSocket 0 ∧ answer ≠ .fails 0) ∧ (a = .release → s.testing = 0 ∧ s.calling = 0)

instance (s : PortListener) (a : ListenAction) : Decidable (Orderly s a) :=
  inferInstanceAs (Decidable ((∀ answer ∈ a.accept?, answer ≠ .noSocket 0 ∧ answer ≠ .fails 0) ∧
    (a = .release → s.testing = 0 ∧ s.calling = 0)))

/-! ### One place has the listener, and each socket -/

namespace PortListener

/-- The socket that `AcceptEx` has. -/
def pending (s : PortListener) : List ℕ := if s.accepting then s.acceptSocket.toList else []

/-- **Each socket is in one place.** -/
def Ledger (s : PortListener) : Prop :=
  (s.handed ++ s.closed ++ s.abandoned ++ s.pending).Perm (List.range s.created)

end PortListener

/-- **What is known of a listener in every run.** -/
structure ListenInv (s : PortListener) : Prop where
  /-- `AcceptEx` or one thread has a listener that is linked -/
  token : s.accepting.toNat + s.sock.begun + s.sock.spinning = s.linked.toNat
  active : s.accepting = true ∨ s.linked = true ∧ s.sock.flags.paused = true → s.active = true
  accepting : s.accepting = true → s.sock.flags.paused = false
  spinning : 0 < s.sock.spinning → s.sock.flags.paused = true
  ended : s.linked = false → s.sock.flags.paused = true → s.sock.flags.killed = true
  inEngine : s.sock.flags.inEngine = false
  listener : s.linked.toNat + s.sock.waiting = s.sock.listener.isSome.toNat
  socket : s.accepting = true → s.acceptSocket.isSome = true
  ledger : s.Ledger
  /-- a thread is about to tell the owner -/
  told : s.testing = 0 ∧ s.calling = 0 ∨ s.sock.listener.isSome = true
  crashed : s.crashed = false

/-- A thread has the listener, and nobody else. -/
structure Held (s : PortListener) : Prop where
  accepting : s.accepting = false
  begun : s.sock.begun = 0
  spinning : s.sock.spinning = 0
  linked : s.linked = true
  inEngine : s.sock.flags.inEngine = false
  listener : s.sock.listener.isSome = true
  waiting : s.sock.waiting = 0
  ledger : s.Ledger
  crashed : s.crashed = false

section Steps

variable {s s' : PortListener} {answer : AcceptAnswer}

theorem listenInv_new : ListenInv .new where
  token := rfl
  active := nofun
  accepting := nofun
  spinning := nofun
  ended := nofun
  inEngine := rfl
  listener := rfl
  socket := nofun
  ledger := List.Perm.refl _
  told := .inl ⟨rfl, rfl⟩
  crashed := rfl

theorem ListenInv.listener_spec (h : ListenInv s) (hlinked : s.linked = true) :
    s.sock.listener.isSome = true ∧ s.sock.waiting = 0 := by
  have hlistener := h.listener
  rw [hlinked] at hlistener
  cases hsome : s.sock.listener.isSome with
  | true =>
    rw [hsome] at hlistener
    exact ⟨rfl, Nat.add_left_cancel hlistener⟩
  | false =>
    rw [hsome] at hlistener
    change 1 + s.sock.waiting = 0 at hlistener
    omega

theorem ListenInv.unlinked (h : ListenInv s) (hlinked : s.linked = false) :
    s.accepting = false ∧ s.sock.begun = 0 ∧ s.sock.spinning = 0 := by
  have htoken := h.token
  rw [hlinked] at htoken
  change _ = 0 at htoken
  refine ⟨?_, by omega, by omega⟩
  cases hacc : s.accepting with
  | false => rfl
  | true =>
    rw [hacc] at htoken
    change 1 + _ + _ = 0 at htoken
    omega

theorem ListenInv.unlinked_of_free (h : ListenInv s) (hfree : s.sock.listener = none) : s.linked = false := by
  by_contra hlinked
  have hsome := (h.listener_spec (Bool.not_eq_false _ ▸ hlinked)).1
  rw [hfree] at hsome
  cases hsome

/-- The one place of a listener. -/
theorem ListenInv.place (h : ListenInv s) (hsome : 0 < s.accepting.toNat + s.sock.begun + s.sock.spinning) :
    s.linked = true ∧ s.accepting.toNat + s.sock.begun + s.sock.spinning = 1 := by
  cases hlinked : s.linked with
  | true => exact ⟨rfl, by rw [h.token, hlinked]; rfl⟩
  | false =>
    obtain ⟨haccepting, hbegun, hspinning⟩ := h.unlinked hlinked
    rw [haccepting, hbegun, hspinning] at hsome
    exact absurd hsome (Nat.lt_irrefl 0)

/-- The packet comes out of the port. -/
theorem ListenInv.heldOfPacket (h : ListenInv s) (haccepting : s.accepting = true) :
    s.sock.begun = 0 ∧ s.sock.spinning = 0 ∧ s.linked = true ∧ s.active = true ∧ s.sock.flags.paused = false := by
  obtain ⟨hlinked, hone⟩ := h.place (by rw [haccepting]; show 0 < 1 + _ + _; omega)
  rw [haccepting] at hone
  change 1 + _ + _ = 1 at hone
  exact ⟨by omega, by omega, hlinked, h.active (.inl haccepting), h.accepting haccepting⟩

/-- A thread takes the listener. -/
theorem ListenInv.held (h : ListenInv s) (hthread : 0 < s.sock.begun + s.sock.spinning) {begun spinning : ℕ}
    (hbegun : begun = 0) (hspinning : spinning = 0) :
    Held { s with sock := { s.sock with begun := begun, spinning := spinning } } := by
  obtain ⟨hlinked, hone⟩ := h.place (by omega)
  obtain ⟨hlistener, hwaiting⟩ := h.listener_spec hlinked
  have haccepting : s.accepting = false := by
    cases hacc : s.accepting with
    | false => rfl
    | true =>
      rw [hacc] at hone
      change 1 + _ + _ = 1 at hone
      omega
  exact ⟨haccepting, hbegun, hspinning, hlinked, h.inEngine, hlistener, hwaiting, h.ledger, h.crashed⟩

/-! What becomes of a listener that a thread has. -/

theorem Held.begin (h : Held s) (hactive : s.sock.flags.paused = true → s.active = true) : ListenInv s.begin where
  token := by
    show s.accepting.toNat + (s.sock.begun + 1) + s.sock.spinning = s.linked.toNat
    rw [h.accepting, h.begun, h.spinning, h.linked]
    rfl
  active hpaused := hactive (hpaused.elim (fun hacc => absurd (h.accepting.symm.trans hacc) (by decide)) And.right)
  accepting hacc := absurd (h.accepting.symm.trans hacc) (by decide)
  spinning hpos := absurd (h.spinning ▸ hpos) (Nat.lt_irrefl 0)
  ended hlinked := absurd (h.linked.symm.trans hlinked) (by decide)
  inEngine := h.inEngine
  listener := by
    show s.linked.toNat + s.sock.waiting = s.sock.listener.isSome.toNat
    rw [h.linked, h.waiting, h.listener]
    rfl
  socket hacc := absurd (h.accepting.symm.trans hacc) (by decide)
  ledger := h.ledger
  told := .inr h.listener
  crashed := h.crashed

theorem Held.spins (h : Held s) (hpaused : s.sock.flags.paused = true) (hactive : s.active = true) :
    ListenInv { s with sock := { s.sock with spinning := s.sock.spinning + 1 } } where
  token := by
    show s.accepting.toNat + s.sock.begun + (s.sock.spinning + 1) = s.linked.toNat
    rw [h.accepting, h.begun, h.spinning, h.linked]
    rfl
  active _ := hactive
  accepting hacc := absurd (h.accepting.symm.trans hacc) (by decide)
  spinning _ := hpaused
  ended hlinked := absurd (h.linked.symm.trans hlinked) (by decide)
  inEngine := h.inEngine
  listener := by
    show s.linked.toNat + s.sock.waiting = s.sock.listener.isSome.toNat
    rw [h.linked, h.waiting, h.listener]
    rfl
  socket hacc := absurd (h.accepting.symm.trans hacc) (by decide)
  ledger := h.ledger
  told := .inr h.listener
  crashed := h.crashed

/-- A socket that is created is in one place. -/
theorem ledger_acceptNext (h : s.Ledger) (haccepting : s.accepting = false) : (s.acceptNext answer).Ledger := by
  unfold PortListener.Ledger PortListener.pending at h
  rw [haccepting, if_neg Bool.false_ne_true, List.append_nil] at h
  cases answer with
  | noSocket err =>
    show (s.handed ++ s.closed ++ s.abandoned ++ if s.accepting then _ else []).Perm _
    rw [haccepting, if_neg Bool.false_ne_true, List.append_nil]
    exact h
  | pending =>
    show (s.handed ++ s.closed ++ s.abandoned ++ [s.created]).Perm (List.range (s.created + 1))
    rw [List.range_succ]
    exact h.append_right _
  | fails err =>
    show (s.handed ++ s.closed ++ (s.abandoned ++ [s.created]) ++ if s.accepting then _ else []).Perm
      (List.range (s.created + 1))
    rw [haccepting, if_neg Bool.false_ne_true, List.append_nil, ← List.append_assoc, List.range_succ]
    exact h.append_right _

/-- `acceptNext` has an error exactly when nothing is under way. -/
theorem acceptNext_error (hanswer : answer ≠ .noSocket 0 ∧ answer ≠ .fails 0) :
    (s.acceptNext answer).sock.error = 0 ↔ answer = .pending := by
  cases answer with
  | noSocket err =>
    refine ⟨fun herr => absurd ?_ hanswer.1, nofun⟩
    rw [show err = 0 from herr]
  | pending => exact ⟨fun _ => rfl, fun _ => rfl⟩
  | fails err =>
    refine ⟨fun herr => absurd ?_ hanswer.2, nofun⟩
    rw [show err = 0 from herr]

@[simp] theorem acceptNext_flags : (s.acceptNext answer).sock.flags = s.sock.flags := by cases answer <;> rfl

/-- An `acceptNext` that fails leaves the listener to the thread. -/
theorem Held.fails (h : Held s) (hanswer : answer ≠ .pending) : Held (s.acceptNext answer) := by
  have hledger : (s.acceptNext answer).Ledger := ledger_acceptNext h.ledger h.accepting
  cases answer with
  | pending => exact absurd rfl hanswer
  | noSocket err | fails err =>
    exact ⟨h.accepting, h.begun, h.spinning, h.linked, h.inEngine, h.listener, h.waiting, hledger, h.crashed⟩

/-- An `AcceptEx` that is under way has the listener. -/
theorem Held.pending (h : Held s) (hpaused : s.sock.flags.paused = false) (hactive : s.active = true) :
    ListenInv (s.acceptNext .pending) where
  token := by
    show 1 + s.sock.begun + s.sock.spinning = s.linked.toNat
    rw [h.begun, h.spinning, h.linked]
    rfl
  active _ := hactive
  accepting _ := hpaused
  spinning hpos := absurd (h.spinning ▸ hpos) (Nat.lt_irrefl 0)
  ended hlinked := absurd (h.linked.symm.trans hlinked) (by decide)
  inEngine := h.inEngine
  listener := by
    show s.linked.toNat + s.sock.waiting = s.sock.listener.isSome.toNat
    rw [h.linked, h.waiting, h.listener]
    rfl
  socket _ := rfl
  ledger := ledger_acceptNext h.ledger h.accepting
  told := .inr h.listener
  crashed := h.crashed

/-! The functions. -/

theorem Held.requeue (h : Held s) (hanswer : answer ≠ .noSocket 0 ∧ answer ≠ .fails 0) (hactive : s.active = true) :
    ListenInv (s.requeue answer) := by
  have hheld : Held { s with sock := s.sock.unpause } :=
    ⟨h.accepting, h.begun, h.spinning, h.linked, h.inEngine, h.listener, h.waiting, h.ledger, h.crashed⟩
  unfold PortListener.requeue
  dsimp only
  split
  next herr =>
    obtain rfl := (acceptNext_error hanswer).mp herr
    exact { hheld.pending rfl hactive with told := .inr h.listener }
  next herr =>
    refine (hheld.fails fun heq => herr ((acceptNext_error hanswer).mpr heq)).begin fun hpaused => ?_
    rw [acceptNext_flags] at hpaused
    exact nomatch hpaused

theorem Held.spin (h : Held s) (hanswer : answer ≠ .noSocket 0 ∧ answer ≠ .fails 0)
    (hpaused : s.sock.flags.paused = true) (hactive : s.active = true) (count : ℕ) :
    ListenInv (s.spin count answer) := by
  obtain ⟨l, hl⟩ := Option.isSome_iff_exists.mp h.listener
  unfold PortListener.spin
  rw [hl]
  dsimp only
  split
  · exact h.requeue hanswer hactive
  split
  · exact h.spins hpaused hactive
  split
  · exact h.spins hpaused hactive
  · exact h.requeue hanswer hactive

theorem Held.handle (h : Held s) (hanswer : answer ≠ .noSocket 0 ∧ answer ≠ .fails 0)
    (hactive : s.sock.flags.paused = true → s.active = true) (count : ℕ) : ListenInv (s.handle count answer) := by
  unfold PortListener.handle
  split
  next hthrottling =>
    have hpaused : s.sock.flags.paused = true := (Bool.and_eq_true_iff.mp hthrottling).2
    exact h.spin hanswer hpaused (hactive hpaused) count
  next hends =>
    exact {
      token := by
        show s.accepting.toNat + s.sock.begun + s.sock.spinning = 0
        rw [h.accepting, h.begun, h.spinning]
        rfl
      active := by
        rintro (hacc | ⟨hlinked, _⟩)
        · exact absurd (h.accepting.symm.trans hacc) (by decide)
        · exact nomatch hlinked
      accepting := fun hacc => absurd (h.accepting.symm.trans hacc) (by decide)
      spinning := fun hpos => absurd (h.spinning ▸ hpos) (Nat.lt_irrefl 0)
      ended := fun _ hpaused => by
        by_contra hkilled
        refine hends ?_
        unfold listenerThrottling
        rw [show s.sock.flags.paused = true from hpaused, Bool.and_true, Bool.not_eq_true']
        exact Bool.eq_false_iff.mpr hkilled
      inEngine := h.inEngine
      listener := by
        show 0 + (s.sock.waiting + 1) = s.sock.listener.isSome.toNat
        rw [h.waiting, h.listener]
        rfl
      socket := fun hacc => absurd (h.accepting.symm.trans hacc) (by decide)
      ledger := h.ledger
      told := .inr h.listener
      crashed := by
        show (s.crashed || !s.linked) = false
        rw [h.crashed, h.linked]
        rfl }

/-- The packet of a connection: the socket is handed over or closed. -/
theorem ListenInv.handOver (h : ListenInv s) (haccepting : s.accepting = true) (acceptEvent : Bool) :
    Held ({ s with accepting := false, cancelled := false }.handOver acceptEvent) := by
  obtain ⟨hbegun, hspinning, hlinked, _, _⟩ := h.heldOfPacket haccepting
  obtain ⟨hlistener, hwaiting⟩ := h.listener_spec hlinked
  have hledger := h.ledger
  unfold PortListener.Ledger PortListener.pending at hledger
  rw [if_pos haccepting] at hledger
  cases acceptEvent with
  | true =>
    refine ⟨rfl, hbegun, hspinning, hlinked, h.inEngine, ?_, hwaiting, ?_, ?_⟩
    · show (s.sock.listener.map _).isSome = true
      rw [Option.isSome_map]
      exact hlistener
    · show (s.handed ++ s.acceptSocket.toList ++ s.closed ++ s.abandoned ++ []).Perm (List.range s.created)
      refine List.Perm.trans ?_ hledger
      rw [List.append_nil, List.append_assoc, List.append_assoc, List.append_assoc, List.append_assoc,
        ← List.append_assoc s.closed]
      exact List.perm_append_comm.append_left s.handed
    · show (s.crashed || s.sock.listener.isNone) = false
      rw [h.crashed, Bool.false_or, Option.isNone_eq_false_iff]
      exact hlistener
  | false =>
    refine ⟨rfl, hbegun, hspinning, hlinked, h.inEngine, hlistener, hwaiting, ?_, h.crashed⟩
    show (s.handed ++ (s.closed ++ s.acceptSocket.toList) ++ s.abandoned ++ []).Perm (List.range s.created)
    refine List.Perm.trans ?_ hledger
    rw [List.append_nil, ← List.append_assoc, List.append_assoc, List.append_assoc (s.handed ++ s.closed)]
    exact List.perm_append_comm.append_left (s.handed ++ s.closed)

theorem Held.goOn (h : Held s) {a : PacketAnswers} (hanswer : a.accept ≠ .noSocket 0 ∧ a.accept ≠ .fails 0)
    (hpaused : s.sock.flags.paused = false) (hactive : s.active = true) : ListenInv (s.goOn a) := by
  unfold PortListener.goOn
  split
  next hthrottle =>
    have hpause := hthrottle.2
    rw [listenerStartThrottling_eq] at hpause ⊢
    rw [if_pos (by_contra fun hnot => by rw [if_neg hnot] at hpause; cases hpause)]
    have hheld : Held { s with sock := s.sock.pause } :=
      ⟨h.accepting, h.begun, h.spinning, h.linked, h.inEngine, h.listener, h.waiting, h.ledger, h.crashed⟩
    exact hheld.begin fun _ => hactive
  split
  next herr =>
    obtain heq := (acceptNext_error hanswer).mp herr
    rw [heq]
    exact h.pending hpaused hactive
  next herr =>
    have hfails := h.fails fun heq => herr ((acceptNext_error hanswer).mpr heq)
    have hheld : Held { s.acceptNext a.accept with active := false } :=
      ⟨hfails.accepting, hfails.begun, hfails.spinning, hfails.linked, hfails.inEngine, hfails.listener, hfails.waiting,
        hfails.ledger, hfails.crashed⟩
    refine hheld.begin fun hpaused' => ?_
    have hflags : (s.acceptNext a.accept).sock.flags.paused = true := hpaused'
    rw [acceptNext_flags, hpaused] at hflags
    cases hflags

theorem ListenInv.packet (h : ListenInv s) (haccepting : s.accepting = true) {a : PacketAnswers}
    (hanswer : a.accept ≠ .noSocket 0 ∧ a.accept ≠ .fails 0) : ListenInv (s.packet a) := by
  obtain ⟨hbegun, hspinning, hlinked, hactive, hpaused⟩ := h.heldOfPacket haccepting
  obtain ⟨hlistener, hwaiting⟩ := h.listener_spec hlinked
  unfold PortListener.packet
  dsimp only
  rw [if_pos hactive]
  split
  · -- a connection
    have hheld := h.handOver haccepting a.acceptEvent
    refine hheld.goOn hanswer ?_ ?_
    · cases a.acceptEvent <;> exact hpaused
    · cases a.acceptEvent <;> exact hactive
  · -- the listener ends, and its socket is left behind
    have hledger := h.ledger
    unfold PortListener.Ledger PortListener.pending at hledger
    rw [if_pos haccepting] at hledger
    have hheld : Held { s with
        active := false, accepting := false, cancelled := false, abandoned := s.abandoned ++ s.acceptSocket.toList } := by
      refine ⟨rfl, hbegun, hspinning, hlinked, h.inEngine, hlistener, hwaiting, ?_, h.crashed⟩
      show (s.handed ++ s.closed ++ (s.abandoned ++ s.acceptSocket.toList) ++ []).Perm (List.range s.created)
      rw [List.append_nil, ← List.append_assoc]
      exact hledger
    exact hheld.begin fun hpaused' => absurd (hpaused.symm.trans hpaused') (by decide)

theorem ListenInv.submit (h : ListenInv s) (hfree : s.sock.listener = none) {a : SubmitAnswers}
    (hanswer : a.accept ≠ .noSocket 0 ∧ a.accept ≠ .fails 0) : ListenInv (s.submit a) := by
  have hlinked := h.unlinked_of_free hfree
  obtain ⟨haccepting, hbegun, hspinning⟩ := h.unlinked hlinked
  have hwaiting : s.sock.waiting = 0 := by
    have hlistener := h.listener
    rw [hlinked, hfree] at hlistener
    change 0 + s.sock.waiting = 0 at hlistener
    omega
  have hset : ∀ err, ListenInv (s.setError err) := fun err =>
    ⟨h.token, h.active, h.accepting, h.spinning, h.ended, h.inEngine, h.listener, h.socket, h.ledger, h.told, h.crashed⟩
  unfold PortListener.submit
  split
  · exact h
  next hgoes =>
  have hkilled : s.sock.flags.killed = false := Bool.eq_false_iff.mpr fun hkilled => hgoes (.inl hkilled)
  have hpaused : s.sock.flags.paused = false := Bool.eq_false_iff.mpr fun hpaused => by
    have := h.ended hlinked hpaused
    rw [hkilled] at this
    cases this
  split
  · exact hset _
  split
  · exact hset _
  have hledger : (s.acceptNext a.accept).Ledger := ledger_acceptNext h.ledger haccepting
  split
  next herr =>
    have heq := (acceptNext_error hanswer).mp herr
    rw [heq] at hledger ⊢
    exact {
      token := by
        show 1 + s.sock.begun + s.sock.spinning = 1
        rw [hbegun, hspinning]
      active := fun _ => rfl
      accepting := fun _ => hpaused
      spinning := fun hpos => absurd (hspinning ▸ hpos) (Nat.lt_irrefl 0)
      ended := nofun
      inEngine := h.inEngine
      listener := by
        show 1 + s.sock.waiting = 1
        rw [hwaiting]
      socket := fun _ => rfl
      ledger := hledger
      told := .inr rfl
      crashed := h.crashed }
  next herr =>
    have hne : a.accept ≠ .pending := fun heq => herr ((acceptNext_error hanswer).mpr heq)
    generalize a.accept = answer at hne hledger ⊢
    cases answer with
    | pending => exact absurd rfl hne
    | noSocket err | fails err =>
      refine ⟨h.token, h.active, h.accepting, h.spinning, h.ended, h.inEngine, h.listener, fun hacc => ?_, hledger,
        h.told, h.crashed⟩
      exact absurd (haccepting.symm.trans hacc) (by decide)

theorem ListenInv.suspend (h : ListenInv s) : ListenInv { s with sock := (socketListenerSuspend s.sock).2 } := by
  unfold socketListenerSuspend
  split
  · exact ⟨h.token, h.active, h.accepting, h.spinning, h.ended, h.inEngine, h.listener, h.socket, h.ledger, h.told,
      h.crashed⟩
  · exact h

theorem ListenInv.resume (h : ListenInv s) : ListenInv { s with sock := (socketListenerResume s.sock).2 } := by
  unfold socketListenerResume
  split
  · exact ⟨h.token, h.active, h.accepting, h.spinning, h.ended, h.inEngine, h.listener, h.socket, h.ledger, h.told,
      h.crashed⟩
  · exact h

theorem ListenInv.kill (h : ListenInv s) : ListenInv s.kill := by
  have hresumed := h.resume
  unfold PortListener.kill
  dsimp only
  split
  · exact ⟨hresumed.token, hresumed.active, hresumed.accepting, hresumed.spinning, fun _ _ => rfl, hresumed.inEngine,
      hresumed.listener, hresumed.socket, hresumed.ledger, hresumed.told, hresumed.crashed⟩
  · exact hresumed

theorem ListenInv.release (h : ListenInv s) (hwaiting : 0 < s.sock.waiting) (htold : s.testing = 0 ∧ s.calling = 0) :
    ListenInv { s with
      sock := { s.sock with waiting := s.sock.waiting - 1, listener := none }
      crashed := s.crashed || s.sock.listener.isNone } := by
  have hlistener := h.listener
  have hle : s.sock.listener.isSome.toNat ≤ 1 := Bool.toNat_le _
  have hsome : s.sock.listener.isSome = true := by
    by_contra hnone
    rw [Bool.eq_false_iff.mpr hnone] at hlistener
    change _ = 0 at hlistener
    omega
  have hlinked : s.linked = false := by
    cases hlinked : s.linked with
    | false => rfl
    | true =>
      rw [hlinked] at hlistener
      change 1 + s.sock.waiting = _ at hlistener
      omega
  refine ⟨h.token, h.active, h.accepting, h.spinning, h.ended, h.inEngine, ?_, h.socket, h.ledger, .inl htold, ?_⟩
  · show s.linked.toNat + (s.sock.waiting - 1) = 0
    rw [hlinked] at hlistener ⊢
    change 0 + s.sock.waiting = _ at hlistener
    show 0 + (s.sock.waiting - 1) = 0
    omega
  · show (s.crashed || s.sock.listener.isNone) = false
    rw [h.crashed, Bool.false_or, Option.isNone_eq_false_iff]
    exact hsome

/-- A thread that tells the owner finds the listener. -/
theorem ListenInv.tell (h : ListenInv s) (hpos : 0 < s.testing + s.calling) (testing calling : ℕ) :
    ListenInv { s with testing := testing, calling := calling, crashed := s.crashed || s.sock.listener.isNone } := by
  have hsome : s.sock.listener.isSome = true := h.told.resolve_left fun hnone => by omega
  refine ⟨h.token, h.active, h.accepting, h.spinning, h.ended, h.inEngine, h.listener, h.socket, h.ledger, .inr hsome, ?_⟩
  show (s.crashed || s.sock.listener.isNone) = false
  rw [h.crashed, Bool.false_or, Option.isNone_eq_false_iff]
  exact hsome

/-- **The step lemma (proved).** -/
theorem listenStep_inv {a : ListenAction} (h : ListenInv s) (hfails : Orderly s a)
    (hstep : listenStep s a = some s') : ListenInv s' := by
  cases a with
  | submit a =>
    obtain ⟨hfree, heq⟩ := Option.ite_none_right_eq_some.mp hstep
    cases heq
    exact h.submit hfree (hfails.1 _ rfl)
  | packet a =>
    obtain ⟨haccepting, heq⟩ := Option.ite_none_right_eq_some.mp hstep
    cases heq
    exact h.packet haccepting (hfails.1 _ rfl)
  | handle count answer =>
    obtain ⟨hbegun, heq⟩ := Option.ite_none_right_eq_some.mp hstep
    cases heq
    obtain ⟨hlinked, hone⟩ := h.place (by omega)
    have hheld : Held { s with sock := { s.sock with begun := s.sock.begun - 1 } } :=
      h.held (by omega) (by omega) (show s.sock.spinning = 0 by omega)
    exact hheld.handle (hfails.1 _ rfl) (fun hpaused => h.active (.inr ⟨hlinked, hpaused⟩)) count
  | spin count answer =>
    obtain ⟨hspinning, heq⟩ := Option.ite_none_right_eq_some.mp hstep
    cases heq
    obtain ⟨hlinked, hone⟩ := h.place (by omega)
    have hpaused := h.spinning hspinning
    have hheld : Held { s with sock := { s.sock with spinning := s.sock.spinning - 1 } } :=
      h.held (by omega) (show s.sock.begun = 0 by omega) (by omega)
    exact hheld.spin (hfails.1 _ rfl) hpaused (h.active (.inr ⟨hlinked, hpaused⟩)) count
  | notify calls =>
    obtain ⟨hpos, heq⟩ := Option.ite_none_right_eq_some.mp hstep
    cases heq
    exact h.tell (by omega) _ _
  | call =>
    obtain ⟨hpos, heq⟩ := Option.ite_none_right_eq_some.mp hstep
    cases heq
    exact h.tell (by omega) s.testing _
  | release =>
    obtain ⟨⟨hwaiting, _⟩, heq⟩ := Option.ite_none_right_eq_some.mp hstep
    cases heq
    exact h.release hwaiting (hfails.2 rfl)
  | acceptDone =>
    obtain ⟨l, hl, hstep⟩ := Option.bind_eq_some_iff.mp hstep
    obtain ⟨_, heq⟩ := Option.ite_none_right_eq_some.mp hstep
    cases heq
    refine ⟨h.token, h.active, h.accepting, h.spinning, h.ended, h.inEngine, ?_, h.socket, h.ledger, .inr rfl, h.crashed⟩
    rw [h.listener, hl]
    rfl
  | suspend =>
    cases hstep
    exact h.suspend
  | resume =>
    cases hstep
    exact h.resume
  | kill =>
    cases hstep
    exact h.kill

end Steps

/-! ### The listener as a service -/

/-- The submission that has not been called back. -/
def PortListener.current (s : PortListener) : Option (ℕ × Bool) :=
  if s.linked then some (s.submissions, false) else none

/-- **The port serves the listener as the service does.** -/
def ListenServes (s : PortListener) (u : Service ℕ Errno) : Prop := u.Shows s.current s.submissions s.reports

/-- What is nothing for the service. -/
structure Silent (s s' : PortListener) : Prop where
  linked : s'.linked = s.linked
  submissions : s'.submissions = s.submissions
  reports : s'.reports = s.reports

section Serves

variable {s s' : PortListener} {answer : AcceptAnswer} {u : Service ℕ Errno}

theorem Silent.trans {s'' : PortListener} (h : Silent s s') (h' : Silent s' s'') : Silent s s'' :=
  ⟨h'.linked.trans h.linked, h'.submissions.trans h.submissions, h'.reports.trans h.reports⟩

theorem acceptNext_silent : Silent s (s.acceptNext answer) := by cases answer <;> exact ⟨rfl, rfl, rfl⟩

theorem requeue_silent : Silent s (s.requeue answer) := by
  have hnext : Silent s ({ s with sock := s.sock.unpause }.acceptNext answer) := by
    refine Silent.trans ?_ acceptNext_silent
    exact ⟨rfl, rfl, rfl⟩
  unfold PortListener.requeue
  dsimp only
  split <;> exact hnext.trans ⟨rfl, rfl, rfl⟩

theorem spin_silent (count : ℕ) : Silent s (s.spin count answer) := by
  unfold PortListener.spin
  dsimp only
  split
  · exact requeue_silent
  split
  · exact ⟨rfl, rfl, rfl⟩
  split
  · split
    · exact ⟨rfl, rfl, rfl⟩
    · exact requeue_silent
  · exact ⟨rfl, rfl, rfl⟩

theorem goOn_silent (a : PacketAnswers) : Silent s (s.goOn a) := by
  unfold PortListener.goOn
  split
  · exact ⟨rfl, rfl, rfl⟩
  split
  · exact acceptNext_silent
  · exact acceptNext_silent.trans ⟨rfl, rfl, rfl⟩

theorem packet_silent (a : PacketAnswers) : Silent s (s.packet a) := by
  unfold PortListener.packet
  dsimp only
  split
  · split
    · refine Silent.trans ?_ (goOn_silent a)
      cases a.acceptEvent <;> exact ⟨rfl, rfl, rfl⟩
    · exact ⟨rfl, rfl, rfl⟩
  · exact ⟨rfl, rfl, rfl⟩

theorem kill_silent : Silent s s.kill := by
  unfold PortListener.kill
  dsimp only
  split <;> exact ⟨rfl, rfl, rfl⟩

theorem ListenServes.silent (h : ListenServes s u) (hs : Silent s s') :
    ∃ v, Reachable (enabled serviceStep) u v ∧ ListenServes s' v := by
  refine ⟨u, .init, ?_⟩
  unfold ListenServes PortListener.current
  rw [hs.linked, hs.submissions, hs.reports]
  exact h

/-- A submission is accepted, or nothing happens. -/
theorem ListenServes.submit (h : ListenServes s u) (hlinked : s.linked = false) (a : SubmitAnswers) :
    ∃ v, Reachable (enabled serviceStep) u v ∧ ListenServes (s.submit a) v := by
  unfold PortListener.submit
  split
  · exact h.silent ⟨rfl, rfl, rfl⟩
  split
  · exact h.silent ⟨rfl, rfl, rfl⟩
  split
  · exact h.silent ⟨rfl, rfl, rfl⟩
  have hsame : Silent s (s.acceptNext a.accept) := acceptNext_silent
  split
  · unfold ListenServes PortListener.current at h
    rw [hlinked, if_neg Bool.false_ne_true] at h
    obtain ⟨v, hv, hshows⟩ := h.accept
    refine ⟨v, hv, ?_⟩
    show v.Shows (some ((s.acceptNext a.accept).submissions + 1, false)) ((s.acceptNext a.accept).submissions + 1)
      (s.acceptNext a.accept).reports
    rw [hsame.submissions, hsame.reports]
    exact hshows
  · exact h.silent hsame

/-- A thread of `HandleSocketEvent` puts the listener back, or reports it. -/
theorem ListenServes.handle (h : ListenServes s u) (hlinked : s.linked = true) (count : ℕ) :
    ∃ v, Reachable (enabled serviceStep) u v ∧ ListenServes (s.handle count answer) v := by
  unfold PortListener.handle
  split
  · exact h.silent (spin_silent count)
  · unfold ListenServes PortListener.current at h
    rw [hlinked, if_pos rfl] at h
    obtain ⟨v, hv, hshows⟩ := h.finish
    obtain ⟨w, hw, hshows⟩ := hshows.report s.sock.error
    exact ⟨w, hv.trans hw, hshows⟩

/-- **A step is nothing for the service, or some of its steps (proved).** -/
theorem ListenServes.step {a : ListenAction} (h : ListenServes s u) (hs : ListenInv s)
    (hstep : listenStep s a = some s') : ∃ v, Reachable (enabled serviceStep) u v ∧ ListenServes s' v := by
  cases a with
  | submit a =>
    obtain ⟨hfree, heq⟩ := Option.ite_none_right_eq_some.mp hstep
    cases heq
    exact h.submit (hs.unlinked_of_free hfree) a
  | packet a =>
    obtain ⟨_, heq⟩ := Option.ite_none_right_eq_some.mp hstep
    cases heq
    exact h.silent (packet_silent a)
  | handle count answer =>
    obtain ⟨hbegun, heq⟩ := Option.ite_none_right_eq_some.mp hstep
    cases heq
    have hsame : ListenServes { s with sock := { s.sock with begun := s.sock.begun - 1 } } u := h
    exact hsame.handle (hs.place (by omega)).1 count
  | spin count answer =>
    obtain ⟨_, heq⟩ := Option.ite_none_right_eq_some.mp hstep
    cases heq
    refine h.silent (Silent.trans ?_ (spin_silent count))
    exact ⟨rfl, rfl, rfl⟩
  | notify calls | call | release =>
    obtain ⟨_, heq⟩ := Option.ite_none_right_eq_some.mp hstep
    cases heq
    exact h.silent ⟨rfl, rfl, rfl⟩
  | acceptDone =>
    obtain ⟨l, _, hstep⟩ := Option.bind_eq_some_iff.mp hstep
    obtain ⟨_, heq⟩ := Option.ite_none_right_eq_some.mp hstep
    cases heq
    exact h.silent ⟨rfl, rfl, rfl⟩
  | suspend | resume =>
    cases hstep
    exact h.silent ⟨rfl, rfl, rfl⟩
  | kill =>
    cases hstep
    exact h.silent kill_silent

/-- **The listener in every orderly run (proved):** no NULL listener is used, each submission is called back once and in
order, and each socket that has been created is in one place. -/
theorem reachable_listener (h : ReachableVia (enabled listenStep) Orderly .new s) :
    s.crashed = false ∧
      (∃ u : Service ℕ Errno, Reachable (enabled serviceStep) {} u ∧ ListenServes s u) ∧
        s.reports.map Prod.fst ++ (if s.linked then [s.submissions] else []) = List.range' 1 s.submissions ∧
          (s.handed ++ s.closed ++ s.abandoned ++ s.pending).Perm (List.range s.created) := by
  have hsim : ∃ u : Service ℕ Errno, Reachable (enabled serviceStep) {} u ∧ ListenInv s ∧ ListenServes s u := by
    refine h.simulateRel (R := fun s u => ListenInv s ∧ ListenServes s u) (fun s a s' u hu hfails hstep => ?_)
      ⟨listenInv_new, .start⟩
    obtain ⟨hinv, hserves⟩ := hu
    obtain ⟨v, hv, hserves⟩ := hserves.step hinv hstep
    exact ⟨v, hv, listenStep_inv hinv hfails hstep, hserves⟩
  obtain ⟨u, hu, hinv, hserves⟩ := hsim
  have hbooks := hserves.books hu
  refine ⟨hinv.crashed, ⟨u, hu, hserves⟩, ?_, hinv.ledger⟩
  rw [← hbooks]
  unfold PortListener.current
  split <;> rfl

/-- A listener that takes one connection, and is killed while it waits for the next one. -/
def endedListener : List ListenAction :=
  [.submit ⟨8, true, true, 0, .pending⟩, .packet ⟨true, true, 1, 1, .pending⟩, .kill,
    .packet ⟨false, true, 1, 1, .pending⟩, .acceptDone, .handle 1 .pending]

/-- It is called back once, and has left a socket behind. -/
theorem reachable_listener_ended : ∃ s : PortListener, s.handed = [0] ∧ s.abandoned = [1] ∧ s.reports = [(1, 0)] ∧
    s.crashed = false ∧
      (∃ u : Service ℕ Errno, Reachable (enabled serviceStep) {} u ∧ ListenServes s u) ∧
        s.reports.map Prod.fst ++ (if s.linked then [s.submissions] else []) = List.range' 1 s.submissions ∧
          (s.handed ++ s.closed ++ s.abandoned ++ s.pending).Perm (List.range s.created) := by
  obtain ⟨s, hrun, hhanded, habandoned, hreports⟩ : ∃ s, runFrom (guarded Orderly listenStep) .new endedListener =
      some s ∧ s.handed = [0] ∧ s.abandoned = [1] ∧ s.reports = [(1, 0)] := ⟨_, rfl, rfl, rfl, rfl⟩
  exact ⟨s, hhanded, habandoned, hreports, reachable_listener (reachableVia_of_runFrom hrun)⟩

/-- **A listener that is freed before its owner is told is used (proved):** the thread that has put it back reads
`listener->eventCallback` of NULL. -/
theorem notify_fails (htesting : 0 < s.testing) (hwaiting : 0 < s.sock.waiting) {l : AsyncListener}
    (hlistener : s.sock.listener = some l) (hdone : l.inAccept < 1) (calls : Bool) :
    ∃ t, runFrom listenStep s [.release, .notify calls] = some t ∧ t.crashed = true := by
  have hrelease : listenStep s .release = some { s with
      sock := { s.sock with waiting := s.sock.waiting - 1, listener := none }
      crashed := s.crashed || s.sock.listener.isNone } :=
    if_pos ⟨hwaiting, by rw [hlistener]; exact decide_eq_true hdone⟩
  have hnotify : runFrom listenStep s [.release, .notify calls] = some { s with
      sock := { s.sock with waiting := s.sock.waiting - 1, listener := none }
      testing := s.testing - 1
      calling := if calls then s.calling + 1 else s.calling
      crashed := s.crashed || s.sock.listener.isNone || true } := by
    show (listenStep s .release).bind _ = _
    rw [hrelease]
    exact congrArg (Option.bind · some) (if_pos htesting)
  exact ⟨_, hnotify, Bool.or_true _⟩

end Serves

end Connio.Port
