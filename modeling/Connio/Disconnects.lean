import Mathlib.Data.Nat.Find
import Connio.SslErrors
import Connio.Engine

/-!
# The synchronous and the asynchronous disconnect

A `CONN_EVENT_DISCONNECT` on an unsecured connected conn shuts its socket down, waits for the peer and drains the
wire.  Where it would block the synchronous event waits in `SocketWait`, the asynchronous one in the socket engine.

* `ReadyBits`, `PollAnswer`, `DisconnectRound` — what the waits and the drains meet;
* `sockWaitForReadable`, `syncWait` — the wait of a synchronous event;
* `ReadyBits.events`, `asyncWait` — the wait of an asynchronous event, from `SocketEventWaitEx` to
  `AsyncEventCallback`;
* `disconnectRun` — the rounds of a disconnect in either mode; `DisconnectEnds` — the status it ends with;
* `disconnectsAgree_iff` — **PROVED**: the modes agree on the status exactly when no hang-up is met, or what ends
  the rounds is a failure.
-/

namespace Connio

/-! ### What a disconnect meets -/

/-- The bits that `poll` or `epoll_wait` reports for a socket; one of them is set. -/
structure ReadyBits where
  pollIn : Bool
  pollHup : Bool
  pollErr : Bool
  pollNval : Bool
  reported : (pollIn || pollHup || pollErr || pollNval) = true
  deriving DecidableEq

/-- How a wait that is not interrupted is answered. -/
inductive PollAnswer where
  | timedOut
  | ready (bits : ReadyBits)
  deriving DecidableEq

/-- The loop of `drainWire`: it receives until a receive fails, with this error. -/
def drainLoop : List (List RecvResult) → Option Errno
  | [] => none
  | results :: receives =>
    match clearReceive results with
    | none => none
    | some (.data _) => drainLoop receives
    | some (.fails err _) => if receives = [] then some err else none

/-- The receives of one `drainWire`. -/
structure Drain where
  receives : List (List RecvResult)
  error : Errno
  ends : drainLoop receives = some error

/-- One wait of a disconnect, interrupted `interrupts` times, and the drain after it. -/
structure DisconnectRound where
  interrupts : ℕ
  answer : PollAnswer
  drain : Drain

theorem clearReceive_fails {err : Errno} {blockedOn : SocketEventType} :
    ∀ {results : List RecvResult}, clearReceive results = some (.fails err blockedOn) → err ≠ 0
  | [], h => by cases h
  | .octets data :: results, h => by
    obtain ⟨_, heq⟩ := Option.ite_none_right_eq_some.mp h
    cases heq
  | .zero :: results, h => by
    obtain ⟨_, heq⟩ := Option.ite_none_right_eq_some.mp h
    obtain ⟨rfl, -⟩ := ReceiveAnswer.fails.inj (Option.some.inj heq)
    decide
  | .fails errno :: results, h => by
    simp only [clearReceive] at h
    split at h
    · exact clearReceive_fails h
    · obtain ⟨hne, heq⟩ := Option.ite_none_right_eq_some.mp h
      obtain ⟨rfl, -⟩ := ReceiveAnswer.fails.inj (Option.some.inj heq)
      exact hne.1

theorem drainLoop_ne_zero {err : Errno} :
    ∀ {receives : List (List RecvResult)}, drainLoop receives = some err → err ≠ 0
  | [], h => by cases h
  | results :: receives, h => by
    unfold drainLoop at h
    split at h
    · cases h
    · exact drainLoop_ne_zero h
    next hfails =>
      obtain ⟨_, heq⟩ := Option.ite_none_right_eq_some.mp h
      obtain rfl := Option.some.inj heq
      exact clearReceive_fails hfails

/-! ### The synchronous wait -/

/-- The result of `sockWaitForReadable` for these bits: 0, or `errno`. -/
def ReadyBits.waitErrno (bits : ReadyBits) : Errno :=
  if (bits.pollHup || bits.pollNval || bits.pollErr) = false ∧ bits.pollIn = true then 0
  else
    -- the `ECONNRESET` of `POLLHUP` is overwritten here: there is no `else` before this test
    if bits.pollNval then Errno.einval else Errno.eio

/-- The result of `sockWaitForReadable` when `poll` is not interrupted. -/
def PollAnswer.waitErrno : PollAnswer → Errno
  | .timedOut => Errno.etimedout
  | .ready bits => bits.waitErrno

/-- `sockWaitForReadable`, where `poll` is interrupted some times first: 0, or `errno`. -/
def sockWaitForReadable (sock : Option ℕ) (answer : PollAnswer) : ℕ → Errno
  | n + 1 => if sock = none then Errno.einval else sockWaitForReadable sock answer n
  | 0 => if sock = none then Errno.einval else answer.waitErrno

/-- What `socketWait` makes of the result: a reset is what a disconnect waits for. -/
def waitReturn (waitOn : SocketEventType) (err : Errno) : Errno :=
  if waitOn = .disconnect ∧ err = Errno.econnreset then 0 else err

/-- The state of a disconnect and the error of its wait; 0 when `EventProcess` goes on. -/
abbrev DisconnectWait :=
  SocketEventType → ConnectState → DisconnectRound → Option (Errno × ConnectState)

/-- `SocketWait` for a synchronous disconnect -/
def syncWait : DisconnectWait := fun blockedOn s r =>
  (socketWait blockedOn
    (some (waitReturn blockedOn (sockWaitForReadable s.sp.number r.answer r.interrupts)))).map (·, s)

/-! ### The asynchronous wait -/

/-- What `_socketEventHandle` distinguishes. -/
def ReadyBits.events (bits : ReadyBits) : PollEvents :=
  if bits.pollErr || bits.pollHup || bits.pollNval then
    if bits.pollHup then .hup else if bits.pollNval then .nval else .err
  else .ready

/-- The loop around `epoll_wait` of the poll thread. -/
def epollWait (answer : PollAnswer) : ℕ → PollAnswer
  | n + 1 => epollWait answer n
  | 0 => answer

/-- What the poll thread does with the event of the receive slot. -/
def pollThread (sp : SOCK) : PollAnswer → SOCK
  | .timedOut => pollTimeout sp .receive
  | .ready bits => pollReady sp .receive bits.events

/-- An asynchronous disconnect from `SocketEventWaitEx` to the error that `AsyncEventCallback` stores; a
submission that fails ends the event with its own error. -/
def asyncWait (e : EventId) : DisconnectWait := fun blockedOn s r =>
  match socketEventWaitEx s.sp blockedOn e 0 with
  | (0, sp) =>
    match handleSocketEvent (pollThread sp (epollWait r.answer r.interrupts)) .receive with
    | some (_, type, error, sp) => some (asyncEventError .disconnect type error, { s with sp := sp })
    | none => none
  | (err, sp) => some (err, { s with sp := sp })

/-! ### The rounds -/

/-- A disconnect inside `EventProcess`. -/
inductive DisconnectPhase where
  | blocked (blockedOn : SocketEventType) (s : ConnectState)
  | ended (status : ConnEventStatus)
  deriving DecidableEq

/-- The event that `EventProcess` is about to process on an unsecured connected conn; no other event waits
for its socket to be readable. -/
structure Disconnecting where
  ce : ConnEvent
  sp : SOCK
  receiveBuffer : List UInt8
  /-- what `shutdown` leaves in `errno` -/
  errno : Errno
  connected : sp.number ≠ none
  unsecured : sp.sslConn = none
  notWaiting : sp.event.receive.arg = none

/-- The status of an event that ends with an error. -/
def ConnEvent.endsWith (ce : ConnEvent) (err : Errno) : ConnEventStatus :=
  abortStatus { ce with error := err }

/-- `EventProcess` when `socketEventProcess` has returned. -/
def disconnectReturned (ce : ConnEvent) : (Errno × SocketEventType) × ConnectState → DisconnectPhase
  | ((err, blockedOn), s) =>
    if err = 0 then .ended .complete
    else if err = Errno.ewouldblock then .blocked blockedOn s.blocked
    else .ended (ce.endsWith err)

/-- One wait of a blocked disconnect, and the drain after it. -/
def disconnectRound (wait : DisconnectWait) (ce : ConnEvent) (r : DisconnectRound) :
    DisconnectPhase → Option DisconnectPhase
  | .ended status => some (.ended status)
  | .blocked blockedOn s =>
    match wait blockedOn s r with
    | none => none
    | some (err, s) =>
      if err = 0 then
        (connectProcess .disconnect s (.drainWire r.drain.error)).map (disconnectReturned ce)
      else some (.ended (ce.endsWith err))

/-- The disconnect after so many rounds. -/
def disconnectRun (wait : DisconnectWait) (d : Disconnecting) (rounds : ℕ → DisconnectRound) :
    ℕ → Option DisconnectPhase
  | 0 =>
    (connectProcess .disconnect ⟨d.sp, d.receiveBuffer, false, 0⟩ (.disconnectStart d.errno)).map
      (disconnectReturned d.ce)
  | n + 1 => (disconnectRun wait d rounds n).bind (disconnectRound wait d.ce (rounds n))

/-- The disconnect ends with this status. -/
def DisconnectEnds (wait : DisconnectWait) (d : Disconnecting) (rounds : ℕ → DisconnectRound)
    (status : ConnEventStatus) : Prop :=
  ∃ n, disconnectRun wait d rounds n = some (.ended status)

/-- The synchronous disconnect and the asynchronous one, as event `e`, end alike. -/
def DisconnectsAgree (d : Disconnecting) (e : EventId) (rounds : ℕ → DisconnectRound) : Prop :=
  ∀ status, DisconnectEnds syncWait d rounds status ↔ DisconnectEnds (asyncWait e) d rounds status

/-! ### What a round does -/

/-- The kernel reports a hang-up. -/
def PollAnswer.hangsUp : PollAnswer → Bool
  | .timedOut => false
  | .ready bits => bits.pollHup

/-- The wait is answered with bits that do not speak of an error, or with a hang-up. -/
def PollAnswer.letsThrough : PollAnswer → Bool
  | .timedOut => false
  | .ready bits => bits.pollHup || !(bits.pollNval || bits.pollErr)

/-- What lets a synchronous disconnect go on: a hang-up does not. -/
def PollAnswer.letsSyncThrough (answer : PollAnswer) : Bool := answer.letsThrough && !answer.hangsUp

/-- The wire is drained and may carry more. -/
def DisconnectRound.GoesOn (r : DisconnectRound) : Prop :=
  r.answer.letsThrough = true ∧ r.drain.error = Errno.ewouldblock

/-- The socket reports an error that is not a hang-up, or the drain meets one that is neither the end of the
stream nor a timeout. -/
def DisconnectRound.Fails (ce : ConnEvent) (r : DisconnectRound) : Prop :=
  (r.answer ≠ .timedOut ∧ r.answer.letsThrough = false) ∨
    (r.answer.letsThrough = true ∧ r.drain.error ≠ Errno.ewouldblock ∧
      r.drain.error ≠ Errno.econnclosedbypeer ∧ ce.endsWith r.drain.error = .failed)

/-- The status with which the drain of a round ends a disconnect. -/
def DisconnectRound.drained (ce : ConnEvent) (r : DisconnectRound) : ConnEventStatus :=
  if r.drain.error = Errno.econnclosedbypeer then .complete else ce.endsWith r.drain.error

/-- The error of a wait that does not let the disconnect go on. -/
def PollAnswer.refusal : PollAnswer → Errno
  | .timedOut => Errno.etimedout
  | .ready bits => if bits.pollNval then Errno.einval else Errno.eio

theorem PollAnswer.refusal_ne_zero (answer : PollAnswer) : answer.refusal ≠ 0 := by
  cases answer with
  | timedOut => decide
  | ready bits =>
    show (if bits.pollNval = true then Errno.einval else Errno.eio) ≠ 0
    split
    · exact (by decide : Errno.einval ≠ 0)
    · exact (by decide : Errno.eio ≠ 0)

/-- A state in which a disconnect waits. -/
structure ConnectState.Waits (s : ConnectState) : Prop where
  inProgress : s.inProgress = true
  connected : s.sp.number ≠ none
  notWaiting : s.sp.event.receive.arg = none

/-- What a wait does, for the answers after which it lets the disconnect go on. -/
structure DisconnectWait.Spec (wait : DisconnectWait) (goes : PollAnswer → Bool) : Prop where
  goesOn : ∀ {blockedOn s r}, blockedOn = .disconnect ∨ blockedOn = .readable → s.Waits →
    goes r.answer = true → ∃ s' : ConnectState, wait blockedOn s r = some (0, s') ∧ s'.Waits
  refuses : ∀ {blockedOn s r}, blockedOn = .disconnect ∨ blockedOn = .readable → s.Waits →
    goes r.answer = false → ∃ s' : ConnectState, wait blockedOn s r = some (r.answer.refusal, s')

/-! ### The two waits -/

/-- Bits without an error are `POLLIN`. -/
theorem ReadyBits.pollIn_of_clear {bits : ReadyBits} (hhup : bits.pollHup = false)
    (hnval : bits.pollNval = false) (herr : bits.pollErr = false) : bits.pollIn = true := by
  have hreported := bits.reported
  rw [hhup, herr, hnval] at hreported
  simpa using hreported

theorem sockWaitForReadable_eq {sock : Option ℕ} (hsock : sock ≠ none) (answer : PollAnswer) (n : ℕ) :
    sockWaitForReadable sock answer n = answer.waitErrno := by
  induction n with
  | zero => exact if_neg hsock
  | succ n ih =>
    rw [sockWaitForReadable, if_neg hsock]
    exact ih

theorem epollWait_eq (answer : PollAnswer) (n : ℕ) : epollWait answer n = answer := by
  induction n with
  | zero => rfl
  | succ n ih => exact ih

/-- A synchronous wait lets a disconnect go on when there is no hang-up. -/
theorem syncWait_spec : DisconnectWait.Spec syncWait PollAnswer.letsSyncThrough := by
  have hwait : ∀ {blockedOn : SocketEventType} {s : ConnectState} {r : DisconnectRound} {err : Errno},
      blockedOn = .disconnect ∨ blockedOn = .readable → s.Waits →
        r.answer.waitErrno = err → err ≠ Errno.econnreset →
          syncWait blockedOn s r = some (err, s) := by
    intro blockedOn s r err hon hs herr hreset
    have hreturn : waitReturn blockedOn (sockWaitForReadable s.sp.number r.answer r.interrupts) = err := by
      rw [sockWaitForReadable_eq hs.connected, herr]
      exact if_neg fun h => hreset h.2
    simp only [syncWait, hreturn]
    rcases hon with rfl | rfl <;> rfl
  refine ⟨fun {blockedOn s r} hon hs hgoes => ⟨s, ?_, hs⟩, fun {blockedOn s r} hon hs hgoes => ⟨s, ?_⟩⟩
  · refine hwait hon hs ?_ (by decide)
    cases hanswer : r.answer with
    | timedOut => simp [hanswer, PollAnswer.letsSyncThrough, PollAnswer.letsThrough] at hgoes
    | ready bits =>
      simp only [hanswer, PollAnswer.letsSyncThrough, PollAnswer.letsThrough, PollAnswer.hangsUp,
        Bool.and_eq_true, Bool.or_eq_true, Bool.not_eq_true', Bool.or_eq_false_iff] at hgoes
      obtain ⟨hclear, hhup⟩ := hgoes
      rw [hhup] at hclear
      obtain ⟨hnval, herr⟩ : bits.pollNval = false ∧ bits.pollErr = false := by simpa using hclear
      simp [PollAnswer.waitErrno, ReadyBits.waitErrno, hhup, hnval, herr, ReadyBits.pollIn_of_clear hhup hnval herr]
  · have herrno : r.answer.waitErrno = r.answer.refusal := by
      cases hanswer : r.answer with
      | timedOut => rfl
      | ready bits =>
        refine if_neg fun hclear => ?_
        simp only [Bool.or_eq_false_iff] at hclear
        simp [hanswer, PollAnswer.letsSyncThrough, PollAnswer.letsThrough, PollAnswer.hangsUp, hclear.1.1.1,
          hclear.1.1.2, hclear.1.2] at hgoes
    refine hwait hon hs herrno ?_
    cases r.answer with
    | timedOut => decide
    | ready bits =>
      show (if bits.pollNval = true then Errno.einval else Errno.eio) ≠ Errno.econnreset
      split
      · exact (by decide : Errno.einval ≠ Errno.econnreset)
      · exact (by decide : Errno.eio ≠ Errno.econnreset)

/-- A submitted disconnect is in the engine, in the receive slot. -/
theorem socketEventWaitEx_disconnect {sp : SOCK} {blockedOn : SocketEventType} (e : EventId)
    (hon : blockedOn = .disconnect ∨ blockedOn = .readable) (hconnected : sp.number ≠ none)
    (hidle : sp.event.receive.arg = none) :
    socketEventWaitEx sp blockedOn e 0 =
      (0, { sp with event.receive := ⟨some e, .readable, 0, true, sp.event.receive.begun⟩ }) := by
  have htype : sockEventTranslate blockedOn = .readable := by
    rcases hon with rfl | rfl <;> rfl
  have hlink : seLinkCe (sp.event.get .receive) .readable e =
      some { sp.event.receive with arg := some e, type := .readable, error := 0 } := by
    simp only [seLinkCe, Slots.get, hidle]
  simp only [socketEventWaitEx, htype, socketEventSlot, if_neg hconnected, hlink, sockEventAdd]
  rfl

/-- An asynchronous wait lets a disconnect go on after a hang-up, too. -/
theorem asyncWait_spec (e : EventId) : DisconnectWait.Spec (asyncWait e) PollAnswer.letsThrough := by
  have hwait : ∀ {blockedOn : SocketEventType} {s : ConnectState} {r : DisconnectRound},
      blockedOn = .disconnect ∨ blockedOn = .readable → s.Waits → ∃ s' : ConnectState, s'.Waits ∧
        asyncWait e blockedOn s r =
          some (if r.answer.letsThrough = true then 0 else r.answer.refusal, s') := by
    intro blockedOn s r hon hs
    simp only [asyncWait, socketEventWaitEx_disconnect e hon hs.connected hs.notWaiting, epollWait_eq]
    cases hanswer : r.answer with
    | timedOut =>
      refine ⟨_, ?_, rfl⟩
      exact ⟨hs.inProgress, hs.connected, rfl⟩
    | ready bits =>
      obtain ⟨pollIn, pollHup, pollErr, pollNval, hreported⟩ := bits
      cases pollHup <;> cases pollErr <;> cases pollNval <;> refine ⟨_, ?_, rfl⟩ <;>
        exact ⟨hs.inProgress, hs.connected, rfl⟩
  refine ⟨fun {blockedOn s r} hon hs hgoes => ?_, fun {blockedOn s r} hon hs hgoes => ?_⟩
  · obtain ⟨s', hs', heq⟩ := hwait hon hs (r := r)
    exact ⟨s', by rw [heq, if_pos hgoes], hs'⟩
  · obtain ⟨s', _, heq⟩ := hwait hon hs (r := r)
    exact ⟨s', by rw [heq, if_neg (by rw [hgoes]; decide)]⟩

/-! ### The rounds of either mode -/

section Rounds

variable {wait : DisconnectWait} {goes : PollAnswer → Bool} {d : Disconnecting}
  {rounds : ℕ → DisconnectRound}

/-- The disconnect waits again after this round. -/
def DisconnectRound.Continues (goes : PollAnswer → Bool) (r : DisconnectRound) : Prop :=
  goes r.answer = true ∧ r.drain.error = Errno.ewouldblock

/-- The status of a disconnect that ends with this round. -/
def DisconnectRound.status (goes : PollAnswer → Bool) (ce : ConnEvent) (r : DisconnectRound) : ConnEventStatus :=
  if goes r.answer = true then r.drained ce else ce.endsWith r.answer.refusal

/-- The drain after a wait that lets the disconnect go on. -/
theorem connectProcess_drain {s : ConnectState} (hs : s.Waits) (r : DisconnectRound) :
    connectProcess .disconnect s (.drainWire r.drain.error) =
      some (drainWire r.drain.error, { s with errno := 0 }) :=
  if_pos ⟨rfl, hs.inProgress, drainLoop_ne_zero r.drain.ends⟩

theorem DisconnectWait.Spec.continues (hwait : wait.Spec goes) {ce : ConnEvent} {s : ConnectState}
    {blockedOn : SocketEventType} {r : DisconnectRound}
    (hon : blockedOn = .disconnect ∨ blockedOn = .readable) (hs : s.Waits) (hr : r.Continues goes) :
    ∃ s' : ConnectState, disconnectRound wait ce r (.blocked blockedOn s) = some (.blocked .readable s') ∧
      s'.Waits := by
  obtain ⟨s', heq, hs'⟩ := hwait.goesOn hon hs hr.1
  refine ⟨{ s' with errno := 0, inProgress := true }, ?_, ⟨rfl, hs'.connected, hs'.notWaiting⟩⟩
  simp only [disconnectRound, heq, if_true, connectProcess_drain hs' r]
  rw [hr.2]
  rfl

theorem DisconnectWait.Spec.stops (hwait : wait.Spec goes) {ce : ConnEvent} {s : ConnectState}
    {blockedOn : SocketEventType} {r : DisconnectRound}
    (hon : blockedOn = .disconnect ∨ blockedOn = .readable) (hs : s.Waits) (hr : ¬r.Continues goes) :
    disconnectRound wait ce r (.blocked blockedOn s) = some (.ended (r.status goes ce)) := by
  cases hgoes : goes r.answer with
  | true =>
    have hblock : r.drain.error ≠ Errno.ewouldblock := fun h => hr ⟨hgoes, h⟩
    obtain ⟨s', heq, hs'⟩ := hwait.goesOn hon hs hgoes
    simp only [disconnectRound, heq, if_true, connectProcess_drain hs' r, Option.map_some,
      DisconnectRound.status, hgoes, DisconnectRound.drained, drainWire]
    by_cases hclosed : r.drain.error = Errno.econnclosedbypeer
    · simp only [if_pos hclosed, disconnectReturned, if_true]
    · simp only [if_neg hclosed, if_neg hblock, disconnectReturned,
        if_neg (drainLoop_ne_zero r.drain.ends)]
  | false =>
    obtain ⟨s', heq⟩ := hwait.refuses hon hs hgoes
    simp only [disconnectRound, heq, if_neg r.answer.refusal_ne_zero, DisconnectRound.status, hgoes]
    rfl

/-- The disconnect still waits as long as every round lets it go on. -/
theorem DisconnectWait.Spec.blocked (hwait : wait.Spec goes) {n : ℕ}
    (hrounds : ∀ j < n, (rounds j).Continues goes) :
    ∃ (blockedOn : SocketEventType) (s : ConnectState),
      disconnectRun wait d rounds n = some (.blocked blockedOn s) ∧
        (blockedOn = .disconnect ∨ blockedOn = .readable) ∧ s.Waits := by
  induction n with
  | zero =>
    refine ⟨.disconnect, ⟨d.sp, [], true, d.errno⟩, ?_, .inl rfl, ⟨rfl, d.connected, d.notWaiting⟩⟩
    simp only [disconnectRun, connectProcess, and_self, if_true, if_neg d.connected]
    rfl
  | succ n ih =>
    obtain ⟨blockedOn, s, hrun, hon, hs⟩ := ih fun j hj => hrounds j (Nat.lt_succ_of_lt hj)
    obtain ⟨s', hround, hs'⟩ : ∃ s', disconnectRound wait d.ce (rounds n) (.blocked blockedOn s) =
        some (.blocked .readable s') ∧ s'.Waits := hwait.continues hon hs (hrounds n (Nat.lt_succ_self n))
    refine ⟨.readable, s', ?_, .inr rfl, hs'⟩
    rw [disconnectRun, hrun]
    exact hround

/-- A disconnect that has ended does nothing more. -/
theorem disconnectRun_stays {n : ℕ} {status : ConnEventStatus}
    (h : disconnectRun wait d rounds n = some (.ended status)) (m : ℕ) :
    disconnectRun wait d rounds (n + m) = some (.ended status) := by
  induction m with
  | zero => exact h
  | succ m ih =>
    rw [← Nat.add_assoc, disconnectRun, ih]
    rfl

/-- A disconnect ends with one status. -/
theorem disconnectEnds_unique {st st' : ConnEventStatus} (h : DisconnectEnds wait d rounds st)
    (h' : DisconnectEnds wait d rounds st') : st = st' := by
  obtain ⟨n, hn⟩ := h
  obtain ⟨m, hm⟩ := h'
  have hn' := disconnectRun_stays hn m
  have hm' := disconnectRun_stays hm n
  rw [Nat.add_comm, hn'] at hm'
  exact DisconnectPhase.ended.inj (Option.some.inj hm')

/-- The round that ends a disconnect is the first that does not let it wait again. -/
theorem DisconnectWait.Spec.ends (hwait : wait.Spec goes) {k : ℕ}
    (hrounds : ∀ j < k, (rounds j).Continues goes) (hstop : ¬(rounds k).Continues goes) :
    DisconnectEnds wait d rounds ((rounds k).status goes d.ce) := by
  obtain ⟨blockedOn, s, hrun, hon, hs⟩ := hwait.blocked hrounds (d := d)
  refine ⟨k + 1, ?_⟩
  rw [disconnectRun, hrun]
  exact hwait.stops hon hs hstop

theorem DisconnectWait.Spec.ends_at (hwait : wait.Spec goes) {status : ConnEventStatus}
    (h : DisconnectEnds wait d rounds status) :
    ∃ k, (∀ j < k, (rounds j).Continues goes) ∧ ¬(rounds k).Continues goes := by
  by_contra hnone
  have hall : ∀ n, ∀ j < n, (rounds j).Continues goes := by
    intro n
    induction n with
    | zero => exact fun j hj => absurd hj (Nat.not_lt_zero j)
    | succ n ih =>
      intro j hj
      rcases Nat.lt_succ_iff_lt_or_eq.mp hj with hlt | rfl
      · exact ih j hlt
      · by_contra hstop
        exact hnone ⟨j, ih, hstop⟩
  obtain ⟨n, hn⟩ := h
  obtain ⟨blockedOn, s, hrun, -, -⟩ := hwait.blocked (hall n) (d := d)
  rw [hrun] at hn
  cases hn

end Rounds

/-! ### The two modes -/

theorem DisconnectRound.goesOn_of_continues {r : DisconnectRound}
    (h : r.Continues PollAnswer.letsSyncThrough) : r.GoesOn :=
  ⟨(Bool.and_eq_true_iff.mp h.1).1, h.2⟩

theorem DisconnectRound.continues_iff {r : DisconnectRound} (hhup : r.answer.hangsUp = false) :
    r.Continues PollAnswer.letsSyncThrough ↔ r.GoesOn := by
  unfold DisconnectRound.Continues DisconnectRound.GoesOn PollAnswer.letsSyncThrough
  rw [hhup]
  simp

/-- Without a hang-up the modes end a round alike. -/
theorem DisconnectRound.status_eq {r : DisconnectRound} (hhup : r.answer.hangsUp = false) (ce : ConnEvent) :
    r.status PollAnswer.letsSyncThrough ce = r.status PollAnswer.letsThrough ce := by
  unfold DisconnectRound.status PollAnswer.letsSyncThrough
  rw [hhup]
  simp

/-- A hang-up ends the synchronous disconnect with a failure. -/
theorem DisconnectRound.status_hangsUp {r : DisconnectRound} (hhup : r.answer.hangsUp = true) (ce : ConnEvent) :
    ¬r.Continues PollAnswer.letsSyncThrough ∧
      r.status PollAnswer.letsSyncThrough ce = .failed := by
  unfold DisconnectRound.Continues DisconnectRound.status PollAnswer.letsSyncThrough
  rw [hhup]
  refine ⟨by simp, ?_⟩
  cases hanswer : r.answer with
  | timedOut =>
    rw [hanswer] at hhup
    cases hhup
  | ready bits =>
    simp only [Bool.not_true, Bool.and_false, PollAnswer.refusal]
    cases bits.pollNval <;> rfl

/-- A round that goes no further ends the asynchronous disconnect with a failure exactly when it fails. -/
theorem DisconnectRound.fails_iff (ce : ConnEvent) (r : DisconnectRound) :
    r.Fails ce ↔ ¬r.GoesOn ∧ r.status PollAnswer.letsThrough ce = .failed := by
  unfold DisconnectRound.Fails DisconnectRound.GoesOn DisconnectRound.status DisconnectRound.drained
  cases hgoes : r.answer.letsThrough with
  | true =>
    by_cases hclosed : r.drain.error = Errno.econnclosedbypeer
    · simp [hclosed]
    · simp [hclosed]
  | false =>
    cases hanswer : r.answer with
    | timedOut =>
      have hstatus : ce.endsWith PollAnswer.timedOut.refusal = .timedOut := rfl
      simp [hstatus]
    | ready bits =>
      have hstatus : ce.endsWith (PollAnswer.ready bits).refusal = .failed := by
        show ce.endsWith (if bits.pollNval = true then Errno.einval else Errno.eio) = .failed
        cases bits.pollNval <;> rfl
      simp [hstatus]

section Agreement

variable {d : Disconnecting} {e : EventId} {rounds : ℕ → DisconnectRound}

/-- Where no hang-up is met before the rounds end, the modes end them alike. -/
theorem disconnectEnds_iff {k : ℕ} (hrounds : ∀ j < k, (rounds j).GoesOn) (hstop : ¬(rounds k).GoesOn)
    (hclear : ∀ j ≤ k, (rounds j).answer.hangsUp = false) (status : ConnEventStatus) :
    DisconnectEnds syncWait d rounds status ↔ DisconnectEnds (asyncWait e) d rounds status := by
  have hasync := (asyncWait_spec e).ends hrounds hstop (d := d)
  have hsync := syncWait_spec.ends (d := d)
    (fun j hj => (DisconnectRound.continues_iff (hclear j (Nat.le_of_lt hj))).mpr (hrounds j hj))
    (fun h => hstop ((DisconnectRound.continues_iff (hclear k (Nat.le_refl k))).mp h))
  rw [DisconnectRound.status_eq (hclear k (Nat.le_refl k))] at hsync
  constructor
  · intro h
    rwa [disconnectEnds_unique h hsync]
  · intro h
    rwa [disconnectEnds_unique h hasync]

/-- The first hang-up fails the synchronous disconnect. -/
theorem disconnectEnds_hangsUp {i : ℕ} (hrounds : ∀ j < i, (rounds j).GoesOn)
    (hhup : (rounds i).answer.hangsUp = true) : DisconnectEnds syncWait d rounds .failed := by
  have hexists : ∃ i, (rounds i).answer.hangsUp = true := ⟨i, hhup⟩
  have hleast : Nat.find hexists ≤ i := Nat.find_min' hexists hhup
  have hgoes : ∀ j < Nat.find hexists, (rounds j).Continues PollAnswer.letsSyncThrough := fun j hj =>
    (DisconnectRound.continues_iff (Bool.eq_false_iff.mpr (Nat.find_min hexists hj))).mpr
      (hrounds j (Nat.lt_of_lt_of_le hj hleast))
  have hends := syncWait_spec.ends hgoes (DisconnectRound.status_hangsUp (Nat.find_spec hexists) d.ce).1 (d := d)
  rwa [(DisconnectRound.status_hangsUp (Nat.find_spec hexists) d.ce).2] at hends

/-- **The modes agree exactly when no hang-up is met, or the rounds end with a failure (proved).**  The
synchronous event takes every hang-up for an error, the asynchronous one goes on to drain the wire. -/
theorem disconnectsAgree_iff (d : Disconnecting) (e : EventId) (rounds : ℕ → DisconnectRound) :
    DisconnectsAgree d e rounds ↔
      (∀ i, (∀ j < i, (rounds j).GoesOn) → (rounds i).answer.hangsUp = false) ∨
        ∃ k, (∀ j < k, (rounds j).GoesOn) ∧ (rounds k).Fails d.ce := by
  constructor
  · intro hagree
    by_contra hnot
    obtain ⟨hmet, hnofail⟩ := not_or.mp hnot
    push Not at hmet
    obtain ⟨i, hrounds, hhup⟩ := hmet
    have hsync : DisconnectEnds syncWait d rounds .failed :=
      disconnectEnds_hangsUp hrounds (eq_true_of_ne_false hhup)
    have hasync := (hagree .failed).mp hsync
    obtain ⟨k, hgoes, hstop⟩ := (asyncWait_spec e).ends_at hasync
    have hstatus := disconnectEnds_unique ((asyncWait_spec e).ends hgoes hstop) hasync
    exact hnofail ⟨k, hgoes, (DisconnectRound.fails_iff d.ce _).mpr ⟨hstop, hstatus⟩⟩
  · rintro (hclear | ⟨k, hrounds, hfails⟩) status
    · -- a run that ends meets no hang-up on its way, whichever mode it is
      have hboth : ∀ {k}, (∀ j < k, (rounds j).GoesOn) → ¬(rounds k).GoesOn →
          (DisconnectEnds syncWait d rounds status ↔ DisconnectEnds (asyncWait e) d rounds status) := by
        intro k hrounds hstop
        exact disconnectEnds_iff hrounds hstop
          (fun j hj => hclear j fun i hi => hrounds i (Nat.lt_of_lt_of_le hi hj)) status
      constructor
      · intro h
        obtain ⟨k, hgoes, hstop⟩ := syncWait_spec.ends_at h
        have hrounds : ∀ j < k, (rounds j).GoesOn := fun j hj =>
          DisconnectRound.goesOn_of_continues (hgoes j hj)
        refine (hboth hrounds fun hgo => hstop ?_).mp h
        exact (DisconnectRound.continues_iff (hclear k hrounds)).mpr hgo
      · intro h
        obtain ⟨k, hrounds, hstop⟩ := (asyncWait_spec e).ends_at h
        exact (hboth hrounds hstop).mpr h
    · obtain ⟨hstop, hfailed⟩ := (DisconnectRound.fails_iff d.ce _).mp hfails
      by_cases hmet : ∃ i ≤ k, (rounds i).answer.hangsUp = true
      · obtain ⟨i, hi, hhup⟩ := hmet
        have hsync : DisconnectEnds syncWait d rounds .failed :=
          disconnectEnds_hangsUp (fun j hj => hrounds j (Nat.lt_of_lt_of_le hj hi)) hhup
        have hasync := (asyncWait_spec e).ends hrounds hstop (d := d)
        rw [hfailed] at hasync
        constructor
        · intro h
          rwa [disconnectEnds_unique h hsync]
        · intro h
          rwa [disconnectEnds_unique h hasync]
      · push Not at hmet
        exact disconnectEnds_iff hrounds hstop
          (fun j hj => Bool.eq_false_iff.mpr (hmet j hj)) status

end Agreement

/-- The answer to a shutdown of both directions: the socket is readable and hung up, and the stream is at its
end. -/
def hungUp : DisconnectRound where
  interrupts := 0
  answer := .ready ⟨true, true, false, false, rfl⟩
  drain := ⟨[[.zero]], Errno.econnclosedbypeer, rfl⟩

/-- A conn on socket 3 with an empty receive buffer. -/
def disconnectingThree : Disconnecting where
  ce := { type := .disconnect, source := ⟨0, 0⟩ }
  sp := { number := some 3 }
  receiveBuffer := []
  errno := 0
  connected := by decide
  unsecured := rfl
  notWaiting := rfl

/-- **The peer's hang-up fails the synchronous disconnect and completes the asynchronous one.** -/
theorem hungUp_disagree : ¬DisconnectsAgree disconnectingThree 0 fun _ => hungUp := by
  intro h
  have hsync : DisconnectEnds syncWait disconnectingThree (fun _ => hungUp) .failed := ⟨1, by decide⟩
  have hasync : DisconnectEnds (asyncWait 0) disconnectingThree (fun _ => hungUp) .complete := ⟨1, by decide⟩
  have heq := disconnectEnds_unique ((h .failed).mp hsync) hasync
  cases heq

end Connio
