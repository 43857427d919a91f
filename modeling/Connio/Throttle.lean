import Connio.Event
import Connio.Lib.Transition

/-!
# Pausing an asynchronous listener

An asynchronous listener on Linux (`throttle.c`, `sockunix.c`, `sockcommon.c`): the poll thread accepts a
connection and puts the listener back into epoll, unless the listener is suspended or the process runs too
many threads; then it is paused, and a thread spins until it may go back.

* `ListenerFlags`, `AsyncListener`, `ListenerSOCK` — the `SOCK` of a listener with its one `SocketEvent`;
* `listenerShouldThrottle`, `listenerStartThrottling`, `listenerSpinWhileThrottling` — the three places
  that test the condition;
* `socketEventHandle_listen`, `handleSocketEvent_listen` — the poll thread, and the thread it begins;
* `ListenerAction`, `listenerStep` — the listener as a system; who moves, and what the thread counts are;
* `Pauses`, `RearmsInOrder`, `AtMostOne` — what suspending and throttling promise;
* `reachable_stopsAccepting` — **PROVED**: they keep the promise when every connection comes while the
  listener is both suspended and over its threshold, or neither.

The callbacks a listener's owner is notified with change nothing here and are left out.
-/

namespace Connio

open Connio.Lib

/-! ### The socket of a listener -/

/-- The `FSE_` flags of a listener's `SocketEvent`. -/
structure ListenerFlags where
  inEngine : Bool := false
  killed : Bool := false
  paused : Bool := false
  suspended : Bool := false
  deriving DecidableEq, Repr

structure AsyncListener where
  throttlingThreshold : ℕ
  /-- accepted connections whose callback has not returned -/
  inAccept : ℕ := 0
  deriving DecidableEq, Repr

structure ListenerSOCK where
  /-- `none` is the NULL pointer -/
  listener : Option AsyncListener
  flags : ListenerFlags
  error : Errno := 0
  /-- the one shot in epoll has not been used -/
  armed : Bool := false
  /-- `epoll_wait` has reported the listener and the poll thread has not taken its lock -/
  reported : Bool := false
  /-- threads begun with `HandleSocketEvent` that have not run yet -/
  begun : ℕ := 0
  /-- threads that sit in the delay of `listenerSpinWhileThrottling` -/
  spinning : ℕ := 0
  /-- threads that wait for the accept callbacks to return -/
  waiting : ℕ := 0
  /-- the connections accepted since `SocketListenerSuspend` returned TRUE; `none` when
  `SocketListenerResume` has undone it.  No modelled function reads it. -/
  sinceSuspend : Option ℕ := none
  deriving DecidableEq, Repr

namespace ListenerSOCK

def pause (s : ListenerSOCK) : ListenerSOCK := { s with flags := { s.flags with paused := true } }

/-- The flags with `FSE_LISTENER_PAUSED` and `FSE_LISTENER_SUSPENDED` removed. -/
def unpause (s : ListenerSOCK) : ListenerSOCK :=
  { s with flags := { s.flags with paused := false, suspended := false } }

/-- `SocketEventComplete` -/
def complete (s : ListenerSOCK) : Bool × ListenerSOCK :=
  if s.flags.inEngine then (true, { s with flags := { s.flags with inEngine := false }, armed := false })
  else (false, s)

/-- `AThreadBegin( &( se->cb.thread ) )` after a completion. -/
def beginIf (r : Bool × ListenerSOCK) : ListenerSOCK :=
  if r.1 then { r.2 with begun := r.2.begun + 1 } else r.2

/-- `_SocketEventRequeue`, and `SocketEventComplete` when it fails; `epollErr` is the errno of
`epoll_ctl( EPOLL_CTL_MOD )`, `0` when it succeeds. -/
def requeue (s : ListenerSOCK) (epollErr : Errno) : Bool × ListenerSOCK :=
  if epollErr = 0 then (false, { s with error := 0, armed := true })
  else { s with error := epollErr }.complete

end ListenerSOCK

/-! ### The three tests -/

/-- `listenerThresholdExceeded`; `count` is what `AThreadCountUpdate` or `AThreadCountRead` answers. -/
def listenerThresholdExceeded (l : AsyncListener) (count : ℕ) : Bool :=
  decide (l.throttlingThreshold < count)

/-- `listenerShouldThrottle`; `read` is what `AThreadCountRead` answers. -/
def listenerShouldThrottle (s : ListenerSOCK) (read : ℕ) : Bool :=
  match s.listener with
  | none => false
  | some l =>
    if s.flags.suspended then true
    else if l.throttlingThreshold = 0 ∨ listenerThresholdExceeded l read = false then false
    else true

/-- `listenerStartThrottling`; `count` is what `AThreadCountUpdate` answers. -/
def listenerStartThrottling (s : ListenerSOCK) (count : ℕ) : Bool × ListenerSOCK :=
  match s.flags.suspended, s.listener with
  | true, some l =>
    if l.throttlingThreshold = 0 ∨ listenerThresholdExceeded l count = false then (false, s)
    else (true, s.pause)
  | _, _ => (false, s)

/-- `listenerThrottling` -/
def listenerThrottling (s : ListenerSOCK) : Bool := !s.flags.killed && s.flags.paused

/-- `sockEventListenerRequeue` -/
def sockEventListenerRequeue (s : ListenerSOCK) (epollErr : Errno) : Bool × ListenerSOCK :=
  s.unpause.requeue epollErr

/-- One round of `listenerSpinWhileThrottling`, with what `HandleSocketEvent` does when the loop is left.
The threshold is read through the pointer, which must not be NULL. -/
def listenerSpinWhileThrottling (s : ListenerSOCK) (count : ℕ) (epollErr : Errno) :
    Option ListenerSOCK :=
  if s.flags.killed then some (ListenerSOCK.beginIf (sockEventListenerRequeue s epollErr))
  else if s.flags.suspended then some { s with spinning := s.spinning + 1 }
  else
    s.listener.map fun l =>
      if listenerThresholdExceeded l count then { s with spinning := s.spinning + 1 }
      else ListenerSOCK.beginIf (sockEventListenerRequeue s epollErr)

/-! ### The poll thread and the thread it begins -/

/-- What the poll thread meets when it handles a listener. -/
structure ListenerWake where
  /-- `accept` returns a socket -/
  accepted : Bool
  /-- an `AcceptEvent` is at hand -/
  acceptEvent : Bool
  /-- what `AThreadCountRead` answers -/
  read : ℕ
  /-- what `AThreadCountUpdate` answers -/
  count : ℕ
  epollErr : Errno
  deriving DecidableEq, Repr

/-- A connection is taken from the backlog; without an `AcceptEvent` it is closed at once. -/
def acceptReady (s : ListenerSOCK) (acceptEvent : Bool) : ListenerSOCK :=
  { s with
    listener := if acceptEvent then s.listener.map fun l => { l with inAccept := l.inAccept + 1 }
      else s.listener
    sinceSuspend := s.sinceSuspend.map (· + 1) }

/-- `_socketEventHandle` for `SOCK_EVENT_TYPE_LISTEN` -/
def socketEventHandle_listen (s : ListenerSOCK) (w : ListenerWake) : Bool × ListenerSOCK :=
  if s.flags.killed then s.complete
  else if w.accepted then
    let s := acceptReady s w.acceptEvent
    if listenerShouldThrottle s w.read then
      match listenerStartThrottling s w.count with
      | (true, s) => (true, s)
      | (false, s) => s.requeue w.epollErr
    else s.requeue w.epollErr
  else s.requeue w.epollErr

/-- `HandleSocketEvent` for `SOCK_EVENT_TYPE_LISTEN` -/
def handleSocketEvent_listen (s : ListenerSOCK) (count : ℕ) (epollErr : Errno) : Option ListenerSOCK :=
  if listenerThrottling s then listenerSpinWhileThrottling s count epollErr
  else some { s with waiting := s.waiting + 1 }

/-! ### The consumer's side -/

/-- `SocketListenerSuspend` -/
def socketListenerSuspend (s : ListenerSOCK) : Bool × ListenerSOCK :=
  if s.listener.isSome ∧ s.flags.killed = false then
    (true, { s with
      flags := { s.flags with suspended := true }
      sinceSuspend := some (s.sinceSuspend.getD 0) })
  else (false, s)

/-- `socketListenerResume` -/
def socketListenerResume (s : ListenerSOCK) : Bool × ListenerSOCK :=
  if s.listener.isSome ∧ s.flags.suspended = true then
    (true, { s with flags := { s.flags with suspended := false } })
  else (false, s)

/-- `SocketEventKill` with `sockEventKill` and `killActiveListener` -/
def socketEventKill_listen (s : ListenerSOCK) : ListenerSOCK :=
  let s := (socketListenerResume s).2
  { s with error := Errno.ecanceled, flags := { s.flags with killed := true } }

/-! ### The listener as a system -/

inductive ListenerAction where
  /-- `epoll_wait` reports the listener -/
  | epollWait
  /-- the poll thread takes the lock -/
  | poll (w : ListenerWake)
  /-- `HandleSocketEvent` -/
  | handle (count : ℕ) (epollErr : Errno)
  /-- the delay of a spinning thread is over -/
  | spin (count : ℕ) (epollErr : Errno)
  /-- a thread finds that the accept callbacks have returned -/
  | release
  /-- `acceptPickup` ends -/
  | acceptDone
  | suspend
  | resume
  | kill
  deriving DecidableEq, Repr

/-- One step of the listener; `none` when the action is not enabled. -/
def listenerStep (s : ListenerSOCK) : ListenerAction → Option ListenerSOCK
  | .epollWait => if s.armed then some { s with armed := false, reported := true } else none
  | .poll w =>
    if s.reported then
      let s := { s with reported := false }
      -- an event that has left the engine is thrown away
      if s.flags.inEngine then some (ListenerSOCK.beginIf (socketEventHandle_listen s w)) else some s
    else none
  | .handle count epollErr =>
    match s.begun with
    | n + 1 => handleSocketEvent_listen { s with begun := n } count epollErr
    | 0 => none
  | .spin count epollErr =>
    match s.spinning with
    | n + 1 => listenerSpinWhileThrottling { s with spinning := n } count epollErr
    | 0 => none
  | .release =>
    match s.waiting, s.listener with
    | n + 1, some l => if l.inAccept < 1 then some { s with waiting := n, listener := none } else none
    | _, _ => none
  | .acceptDone =>
    s.listener.map fun l => { s with listener := some { l with inAccept := l.inAccept - 1 } }
  | .suspend => some (socketListenerSuspend s).2
  | .resume =>
    match socketListenerResume s with
    | (true, s) => some { s with sinceSuspend := none }
    | (false, s) => some s
  | .kill => some (socketEventKill_listen s)

/-- A listener that `SocketEventWaitEx` has just put into the engine. -/
def listenerSubmitted (throttlingThreshold : ℕ) : ListenerSOCK where
  listener := some { throttlingThreshold := throttlingThreshold }
  flags := { inEngine := true }
  armed := true

/-! ### What suspending and throttling promise -/

/-- The threshold is not zero, and the thread count exceeds it. -/
def ListenerSOCK.overThreshold (s : ListenerSOCK) (count : ℕ) : Bool :=
  s.listener.any fun l => decide (l.throttlingThreshold ≠ 0) && listenerThresholdExceeded l count

/-- The poll thread handles an accept. -/
def ListenerSOCK.accepts (s : ListenerSOCK) (w : ListenerWake) : Bool :=
  s.flags.inEngine && !s.flags.killed && w.accepted

/-- **A connection that comes while the listener is suspended or over its threshold pauses it.** -/
def Pauses (s : ListenerSOCK) : ListenerAction → ListenerSOCK → Prop
  | .poll w, s' => s.accepts w = true → s.flags.suspended = true ∨ s.overThreshold w.count = true →
      s'.flags.paused = true ∧ s'.armed = false
  | _, _ => True

/-- A thread that looks at the listener again, and the count it finds. -/
def ListenerAction.threadCount : ListenerAction → Option ℕ
  | .handle count _ | .spin count _ => some count
  | _ => none

/-- **A paused listener goes back into epoll only when it is killed, or when it is no longer suspended and
not over its threshold.** -/
def RearmsInOrder (s : ListenerSOCK) (a : ListenerAction) (s' : ListenerSOCK) : Prop :=
  s.flags.paused = true → s'.armed = true →
    s.flags.killed = true ∨ s.flags.suspended = false ∧
      ∃ count, a.threadCount = some count ∧ s.overThreshold count = false

/-- **After a suspend at most one more connection is accepted until the resume.** -/
def AtMostOne (s : ListenerSOCK) : Prop := ∀ n ∈ s.sinceSuspend, n ≤ 1

/-- The connection the poll thread accepts comes while the listener is both suspended and over its
threshold, or neither. -/
def SuspendedOverThreshold (s : ListenerSOCK) : ListenerAction → Prop
  | .poll w => s.accepts w = true → (s.flags.suspended = true ↔ s.overThreshold w.count = true)
  | _ => True

instance (s : ListenerSOCK) (a : ListenerAction) : Decidable (SuspendedOverThreshold s a) := by
  cases a <;> unfold SuspendedOverThreshold <;> infer_instance

/-! ### One step -/

/-- What is known of a listener in every run of such connections: one thread or epoll has it, it is paused
out of epoll, and after a suspend the first connection pauses it. -/
structure ListenerInv (s : ListenerSOCK) : Prop where
  token : s.armed.toNat + s.reported.toNat + s.begun + s.spinning + s.waiting ≤ 1
  paused : s.flags.paused = true → s.armed = false ∧ s.reported = false
  suspended : ∀ n ∈ s.sinceSuspend, s.flags.suspended = true ∨ s.flags.killed = true
  stopped : ∀ n ∈ s.sinceSuspend, s.flags.killed = false → n = 0 ∨ s.flags.paused = true
  atMostOne : AtMostOne s

theorem listenerInv_submitted (throttlingThreshold : ℕ) :
    ListenerInv (listenerSubmitted throttlingThreshold) where
  token := Nat.le_refl 1
  paused := fun h => by cases h
  suspended := fun n h => by cases h
  stopped := fun n h => by cases h
  atMostOne := fun n h => by cases h

/-- What is the same after the listener has gone back into epoll, or has left the engine instead. -/
structure Requeued (s s' : ListenerSOCK) : Prop where
  listener : s'.listener = s.listener
  killed : s'.flags.killed = s.flags.killed
  paused : s'.flags.paused = s.flags.paused
  suspended : s'.flags.suspended = s.flags.suspended
  sinceSuspend : s'.sinceSuspend = s.sinceSuspend
  token : s'.armed.toNat + s'.reported.toNat + s'.begun + s'.spinning + s'.waiting ≤
    s.reported.toNat + s.begun + s.spinning + s.waiting + 1

theorem complete_requeued {s : ListenerSOCK} (h : s.armed = false) :
    Requeued s (ListenerSOCK.beginIf s.complete) := by
  unfold ListenerSOCK.complete
  split
  · refine ⟨rfl, rfl, rfl, rfl, rfl, ?_⟩
    simp only [ListenerSOCK.beginIf, if_true, Bool.toNat_false]
    omega
  · refine ⟨rfl, rfl, rfl, rfl, rfl, ?_⟩
    simp only [ListenerSOCK.beginIf, h, Bool.toNat_false, Bool.false_eq_true, if_false]
    omega

theorem requeue_requeued {s : ListenerSOCK} (h : s.armed = false) (epollErr : Errno) :
    Requeued s (ListenerSOCK.beginIf (s.requeue epollErr)) := by
  unfold ListenerSOCK.requeue
  split
  · refine ⟨rfl, rfl, rfl, rfl, rfl, ?_⟩
    simp only [ListenerSOCK.beginIf, Bool.false_eq_true, if_false, Bool.toNat_true]
    omega
  · obtain ⟨hl, hk, hp, hs, hn, ht⟩ := complete_requeued (s := { s with error := epollErr }) h
    exact ⟨hl, hk, hp, hs, hn, ht⟩

/-- No thread has the listener, and it is not in epoll. -/
def ListenerSOCK.Held (s : ListenerSOCK) : Prop :=
  s.armed.toNat + s.reported.toNat + s.begun + s.spinning + s.waiting = 0

theorem ListenerSOCK.Held.armed {s : ListenerSOCK} (h : s.Held) : s.armed = false := by
  cases ha : s.armed with
  | false => rfl
  | true =>
    simp only [ListenerSOCK.Held, ha, Bool.toNat_true] at h
    omega

/-- A listener that is not paused goes back into epoll, or leaves the engine. -/
theorem ListenerInv.of_requeued {s s' : ListenerSOCK} (h : ListenerInv s) (hheld : s.Held)
    (hpaused : s.flags.paused = false) (hr : Requeued s s') : ListenerInv s' := by
  have hzero : s.reported.toNat + s.begun + s.spinning + s.waiting = 0 := by
    simp only [ListenerSOCK.Held] at hheld
    omega
  constructor
  · have := hr.token
    omega
  · intro hp
    rw [hr.paused, hpaused] at hp
    cases hp
  · rw [hr.sinceSuspend, hr.suspended, hr.killed]
    exact h.suspended
  · rw [hr.sinceSuspend, hr.killed, hr.paused]
    exact h.stopped
  · unfold AtMostOne
    rw [hr.sinceSuspend]
    exact h.atMostOne

theorem ListenerInv.requeue {s : ListenerSOCK} (h : ListenerInv s) (hheld : s.Held)
    (hpaused : s.flags.paused = false) (epollErr : Errno) :
    ListenerInv (ListenerSOCK.beginIf (s.requeue epollErr)) :=
  h.of_requeued hheld hpaused (requeue_requeued hheld.armed epollErr)

/-- A listener that is killed, or not suspended, is no longer paused. -/
theorem ListenerInv.unpause {s : ListenerSOCK} (h : ListenerInv s)
    (hgo : s.flags.killed = true ∨ s.flags.suspended = false) : ListenerInv s.unpause := by
  have hkilled : ∀ n ∈ s.sinceSuspend, s.flags.killed = true := fun n hn =>
    hgo.elim id fun hs => (h.suspended n hn).resolve_left (by simp [hs])
  constructor
  · exact h.token
  · intro hp
    cases hp
  · exact fun n hn => Or.inr (hkilled n hn)
  · intro n hn hk
    have hk' := hkilled n hn
    rw [show s.flags.killed = false from hk] at hk'
    cases hk'
  · exact h.atMostOne

/-- A thread spins on, or the listener goes back. -/
theorem spin_inv {s s' : ListenerSOCK} {count : ℕ} {epollErr : Errno} (h : ListenerInv s)
    (hheld : s.Held) (hstep : listenerSpinWhileThrottling s count epollErr = some s') :
    ListenerInv s' := by
  have hspin : ListenerInv { s with spinning := s.spinning + 1 } := by
    refine ⟨?_, h.paused, h.suspended, h.stopped, h.atMostOne⟩
    simp only [ListenerSOCK.Held] at hheld
    show s.armed.toNat + s.reported.toNat + s.begun + (s.spinning + 1) + s.waiting ≤ 1
    omega
  unfold listenerSpinWhileThrottling at hstep
  split at hstep
  next hk =>
    cases hstep
    exact (h.unpause (.inl hk)).requeue hheld rfl epollErr
  · split at hstep
    · cases hstep
      exact hspin
    next hs =>
      obtain ⟨l, _, rfl⟩ := Option.map_eq_some_iff.mp hstep
      split
      · exact hspin
      · exact (h.unpause (.inr (by simpa using hs))).requeue hheld rfl epollErr

theorem handle_inv {s s' : ListenerSOCK} {count : ℕ} {epollErr : Errno} (h : ListenerInv s)
    (hheld : s.Held) (hstep : handleSocketEvent_listen s count epollErr = some s') : ListenerInv s' := by
  unfold handleSocketEvent_listen at hstep
  split at hstep
  · exact spin_inv h hheld hstep
  · cases hstep
    refine ⟨?_, h.paused, h.suspended, h.stopped, h.atMostOne⟩
    simp only [ListenerSOCK.Held] at hheld
    show s.armed.toNat + s.reported.toNat + s.begun + s.spinning + (s.waiting + 1) ≤ 1
    omega

/-- `listenerStartThrottling` asks for both conditions. -/
theorem listenerStartThrottling_eq (s : ListenerSOCK) (count : ℕ) : listenerStartThrottling s count =
    if s.flags.suspended = true ∧ s.overThreshold count = true then (true, s.pause) else (false, s) := by
  unfold listenerStartThrottling ListenerSOCK.overThreshold
  cases hs : s.flags.suspended with
  | false => simp
  | true =>
    cases hl : s.listener with
    | none => simp
    | some l =>
      by_cases h0 : l.throttlingThreshold = 0 <;>
        by_cases hc : listenerThresholdExceeded l count = true <;> simp [h0, hc]

theorem acceptReady_overThreshold (s : ListenerSOCK) (acceptEvent : Bool) (count : ℕ) :
    (acceptReady s acceptEvent).overThreshold count = s.overThreshold count := by
  unfold acceptReady ListenerSOCK.overThreshold
  cases acceptEvent <;> cases s.listener <;> rfl

/-- **What the poll thread does with a connection:** it pauses a listener that is suspended and over its
threshold, and puts every other one back. -/
theorem socketEventHandle_listen_eq {s : ListenerSOCK} {w : ListenerWake} (hk : s.flags.killed = false)
    (ha : w.accepted = true) : socketEventHandle_listen s w =
      if s.flags.suspended = true ∧ s.overThreshold w.count = true then
        (true, (acceptReady s w.acceptEvent).pause)
      else (acceptReady s w.acceptEvent).requeue w.epollErr := by
  have hshould : s.flags.suspended = true → s.overThreshold w.count = true →
      listenerShouldThrottle (acceptReady s w.acceptEvent) w.read = true := by
    intro hs hover
    unfold ListenerSOCK.overThreshold at hover
    unfold listenerShouldThrottle acceptReady
    cases hl : s.listener with
    | none => simp [hl] at hover
    | some l => cases w.acceptEvent <;> simp [hs]
  have hstart := listenerStartThrottling_eq (acceptReady s w.acceptEvent) w.count
  rw [acceptReady_overThreshold] at hstart
  simp only [socketEventHandle_listen, hk, ha, Bool.false_eq_true, if_false, if_true, hstart]
  by_cases hboth : s.flags.suspended = true ∧ s.overThreshold w.count = true
  · rw [if_pos (hshould hboth.1 hboth.2)]
    simp [acceptReady, hboth.1, hboth.2]
  · have hboth' : ¬ ((acceptReady s w.acceptEvent).flags.suspended = true ∧
        s.overThreshold w.count = true) := hboth
    rw [if_neg hboth', if_neg hboth]
    split <;> rfl

/-- A connection that comes to a listener that is not suspended is not counted. -/
theorem acceptReady_inv {s : ListenerSOCK} (h : ListenerInv s) (hk : s.flags.killed = false)
    (hs : s.flags.suspended = false) (acceptEvent : Bool) : ListenerInv (acceptReady s acceptEvent) := by
  have hnone : s.sinceSuspend = none := Option.eq_none_iff_forall_not_mem.mpr fun n hn =>
    (h.suspended n hn).elim (by simp [hs]) (by simp [hk])
  have hnone' : (acceptReady s acceptEvent).sinceSuspend = none := by simp [acceptReady, hnone]
  constructor
  · exact h.token
  · exact h.paused
  · rw [hnone']
    exact fun n hn => by cases hn
  · rw [hnone']
    exact fun n hn => by cases hn
  · unfold AtMostOne
    rw [hnone']
    exact fun n hn => by cases hn

/-- The connection that pauses a suspended listener is the first one since the suspend. -/
theorem acceptReady_pause_inv {s : ListenerSOCK} (h : ListenerInv s) (hheld : s.Held)
    (hk : s.flags.killed = false) (hp : s.flags.paused = false) (hs : s.flags.suspended = true)
    (acceptEvent : Bool) :
    ListenerInv (ListenerSOCK.beginIf (true, (acceptReady s acceptEvent).pause)) := by
  have hfirst : ∀ n ∈ (acceptReady s acceptEvent).sinceSuspend, n = 1 := by
    intro n hn
    obtain ⟨m, hm, rfl⟩ := Option.map_eq_some_iff.mp hn
    have hzero : m = 0 := (h.stopped m hm hk).resolve_right (by simp [hp])
    rw [hzero]
  simp only [ListenerSOCK.Held] at hheld
  constructor
  · show s.armed.toNat + s.reported.toNat + (s.begun + 1) + s.spinning + s.waiting ≤ 1
    omega
  · intro _
    cases ha : s.armed <;> cases hr : s.reported <;> simp [ha, hr] at hheld
    exact ⟨ha, hr⟩
  · exact fun n _ => Or.inl hs
  · exact fun n _ _ => Or.inr rfl
  · exact fun n hn => Nat.le_of_eq (hfirst n hn)

/-- **The poll thread handles a listener.** -/
theorem poll_inv {s : ListenerSOCK} {w : ListenerWake} (h : ListenerInv s) (hheld : s.Held)
    (hp : s.flags.paused = false)
    (hcalm : s.flags.killed = false → w.accepted = true →
      (s.flags.suspended = true ↔ s.overThreshold w.count = true)) :
    ListenerInv (ListenerSOCK.beginIf (socketEventHandle_listen s w)) := by
  cases hk : s.flags.killed with
  | true =>
    have heq : socketEventHandle_listen s w = s.complete := by simp [socketEventHandle_listen, hk]
    rw [heq]
    exact h.of_requeued hheld hp (complete_requeued hheld.armed)
  | false =>
    cases ha : w.accepted with
    | false =>
      have heq : socketEventHandle_listen s w = s.requeue w.epollErr := by
        simp [socketEventHandle_listen, hk, ha]
      rw [heq]
      exact h.requeue hheld hp w.epollErr
    | true =>
      have hiff := hcalm hk ha
      rw [socketEventHandle_listen_eq hk ha]
      cases hs : s.flags.suspended with
      | true =>
        rw [if_pos ⟨rfl, hiff.mp hs⟩]
        exact acceptReady_pause_inv h hheld hk hp hs w.acceptEvent
      | false =>
        rw [if_neg (fun hboth => by cases hboth.1)]
        exact (acceptReady_inv h hk hs w.acceptEvent).requeue hheld hp w.epollErr

/-! ### Every run -/

section Runs

variable {s s' : ListenerSOCK}

/-- The poll thread takes the listener over from epoll. -/
theorem ListenerInv.take (h : ListenerInv s) (hr : s.reported = true) :
    ListenerInv { s with reported := false } ∧ ListenerSOCK.Held { s with reported := false } ∧
      s.flags.paused = false := by
  have htoken := h.token
  rw [hr, Bool.toNat_true] at htoken
  have hheld : ListenerSOCK.Held { s with reported := false } := by
    show s.armed.toNat + 0 + s.begun + s.spinning + s.waiting = 0
    omega
  refine ⟨⟨?_, fun hp => ⟨(h.paused hp).1, rfl⟩, h.suspended, h.stopped, h.atMostOne⟩, hheld, ?_⟩
  · rw [show _ = 0 from hheld]
    exact Nat.zero_le 1
  · cases hp : s.flags.paused with
    | false => rfl
    | true =>
      have hnot := (h.paused hp).2
      rw [hr] at hnot
      cases hnot

/-- A begun or a spinning thread takes the listener over. -/
theorem ListenerInv.resumeThread (h : ListenerInv s) (begun spinning : ℕ)
    (hone : begun + spinning + 1 = s.begun + s.spinning) :
    ListenerInv { s with begun := begun, spinning := spinning } ∧
      ListenerSOCK.Held { s with begun := begun, spinning := spinning } := by
  have htoken := h.token
  have hheld : ListenerSOCK.Held { s with begun := begun, spinning := spinning } := by
    show s.armed.toNat + s.reported.toNat + begun + spinning + s.waiting = 0
    omega
  refine ⟨⟨?_, h.paused, h.suspended, h.stopped, h.atMostOne⟩, hheld⟩
  rw [show _ = 0 from hheld]
  exact Nat.zero_le 1

/-- **One step keeps the invariant.** -/
theorem listenerStep_inv {a : ListenerAction} (h : ListenerInv s) (hcalm : SuspendedOverThreshold s a)
    (hstep : listenerStep s a = some s') : ListenerInv s' := by
  cases a with
  | epollWait =>
    simp only [listenerStep] at hstep
    split at hstep <;> cases hstep
    next ha =>
      have htoken := h.token
      rw [ha, Bool.toNat_true] at htoken
      refine ⟨?_, fun hp => ?_, h.suspended, h.stopped, h.atMostOne⟩
      · show 0 + 1 + s.begun + s.spinning + s.waiting ≤ 1
        omega
      · have hnot := (h.paused hp).1
        rw [ha] at hnot
        cases hnot
  | poll w =>
    simp only [listenerStep] at hstep
    split at hstep
    next hr =>
      obtain ⟨hinv, hheld, hp⟩ := h.take hr
      split at hstep <;> cases hstep
      next hin =>
        refine poll_inv hinv hheld hp fun hk ha => hcalm ?_
        simp [ListenerSOCK.accepts, hin, ha, show s.flags.killed = false from hk]
      · exact hinv
    · cases hstep
  | handle count epollErr =>
    simp only [listenerStep] at hstep
    split at hstep
    next n hn =>
      obtain ⟨hinv, hheld⟩ := h.resumeThread n s.spinning (by omega)
      exact handle_inv hinv hheld hstep
    · cases hstep
  | spin count epollErr =>
    simp only [listenerStep] at hstep
    split at hstep
    next n hn =>
      obtain ⟨hinv, hheld⟩ := h.resumeThread s.begun n (by omega)
      exact spin_inv hinv hheld hstep
    · cases hstep
  | release =>
    simp only [listenerStep] at hstep
    split at hstep
    next n l hn hl =>
      split at hstep <;> cases hstep
      refine ⟨?_, h.paused, h.suspended, h.stopped, h.atMostOne⟩
      have htoken := h.token
      show s.armed.toNat + s.reported.toNat + s.begun + s.spinning + n ≤ 1
      omega
    · cases hstep
  | acceptDone =>
    obtain ⟨l, _, rfl⟩ := Option.map_eq_some_iff.mp hstep
    exact ⟨h.token, h.paused, h.suspended, h.stopped, h.atMostOne⟩
  | suspend =>
    cases hstep
    unfold socketListenerSuspend
    split
    next hgo =>
      have hcount : ∀ n ∈ some (s.sinceSuspend.getD 0), n = 0 ∨ n ∈ s.sinceSuspend := by
        intro n hn
        cases hs : s.sinceSuspend with
        | none => exact Or.inl (by simpa [hs] using hn.symm)
        | some m => exact Or.inr (by simpa [hs] using hn)
      constructor
      · exact h.token
      · exact h.paused
      · exact fun n _ => Or.inl rfl
      · exact fun n hn hk => (hcount n hn).elim Or.inl fun hm => h.stopped n hm hk
      · exact fun n hn => (hcount n hn).elim (fun h0 => h0 ▸ Nat.zero_le 1) (h.atMostOne n)
    · exact h
  | resume =>
    simp only [listenerStep, socketListenerResume] at hstep
    split at hstep
    next hgo =>
      split at hgo <;> cases hgo
      cases hstep
      constructor
      · exact h.token
      · exact h.paused
      · exact fun n hn => by cases hn
      · exact fun n hn => by cases hn
      · exact fun n hn => by cases hn
    next hgo =>
      split at hgo <;> cases hgo
      cases hstep
      exact h
  | kill =>
    cases hstep
    have hrest : ∀ t : ListenerSOCK, t.armed = s.armed → t.reported = s.reported → t.begun = s.begun →
        t.spinning = s.spinning → t.waiting = s.waiting → t.flags.paused = s.flags.paused →
        t.flags.killed = true → t.sinceSuspend = s.sinceSuspend → ListenerInv t := by
      intro t h1 h2 h3 h4 h5 h6 h7 h8
      constructor
      · rw [h1, h2, h3, h4, h5]
        exact h.token
      · rw [h1, h2, h6]
        exact h.paused
      · exact fun n _ => Or.inr h7
      · intro n _ hk
        rw [h7] at hk
        cases hk
      · unfold AtMostOne
        rw [h8]
        exact h.atMostOne
    unfold socketEventKill_listen socketListenerResume
    split <;> exact hrest _ rfl rfl rfl rfl rfl rfl rfl rfl

/-- **A connection pauses the listener when it must, exactly for these connections.** -/
theorem pauses_iff {a : ListenerAction} (h : ListenerInv s) (hstep : listenerStep s a = some s') :
    Pauses s a s' ↔ SuspendedOverThreshold s a := by
  cases a with
  | poll w =>
    simp only [listenerStep] at hstep
    split at hstep
    next hr =>
      obtain ⟨_, hheld, hp⟩ := h.take hr
      cases ha : s.accepts w with
      | false => simp [Pauses, SuspendedOverThreshold, ha]
      | true =>
        have haccepts := ha
        simp only [ListenerSOCK.accepts, Bool.and_eq_true, Bool.not_eq_true'] at ha
        obtain ⟨⟨hin, hk⟩, hacc⟩ := ha
        rw [if_pos hin] at hstep
        cases hstep
        have heq := socketEventHandle_listen_eq (s := { s with reported := false }) (w := w) hk hacc
        by_cases hboth : s.flags.suspended = true ∧ s.overThreshold w.count = true
        · have heq := heq.trans (if_pos hboth)
          rw [heq]
          refine iff_of_true (fun _ _ => ⟨rfl, hheld.armed⟩) fun _ => iff_of_true hboth.1 hboth.2
        · have heq := heq.trans (if_neg hboth)
          have hr := requeue_requeued (s := acceptReady { s with reported := false } w.acceptEvent)
            hheld.armed w.epollErr
          have hnot : ¬ (ListenerSOCK.beginIf (socketEventHandle_listen { s with reported := false }
              w)).flags.paused = true := by
            rw [heq, hr.paused]
            simp [acceptReady, hp]
          simp only [Pauses, SuspendedOverThreshold, haccepts, true_implies, hnot]
          tauto
    · cases hstep
  | _ => exact iff_of_true trivial trivial

/-- A thread puts the listener back only when the loop may be left. -/
theorem spin_rearms {count : ℕ} {epollErr : Errno}
    (hstep : listenerSpinWhileThrottling s count epollErr = some s') (hs : s.armed = false)
    (hs' : s'.armed = true) :
    s.flags.killed = true ∨ s.flags.suspended = false ∧ s.overThreshold count = false := by
  unfold listenerSpinWhileThrottling at hstep
  split at hstep
  next hk => exact Or.inl hk
  · split at hstep
    · cases hstep
      rw [hs] at hs'
      cases hs'
    next hsus =>
      obtain ⟨l, hl, rfl⟩ := Option.map_eq_some_iff.mp hstep
      split at hs'
      · rw [hs] at hs'
        cases hs'
      next hcount =>
        refine Or.inr ⟨by simpa using hsus, ?_⟩
        simp [ListenerSOCK.overThreshold, hl, hcount]

theorem rearmsInOrder {a : ListenerAction} (h : ListenerInv s) (hstep : listenerStep s a = some s') :
    RearmsInOrder s a s' := by
  intro hp harmed
  obtain ⟨hs, hr⟩ := h.paused hp
  have hsame : s'.armed = s.armed → s.flags.killed = true ∨ s.flags.suspended = false ∧
      ∃ count, a.threadCount = some count ∧ s.overThreshold count = false := by
    intro heq
    rw [heq, hs] at harmed
    cases harmed
  cases a with
  | epollWait => simp [listenerStep, hs] at hstep
  | poll w => simp [listenerStep, hr] at hstep
  | handle count epollErr =>
    simp only [listenerStep] at hstep
    split at hstep
    next n hn =>
      unfold handleSocketEvent_listen at hstep
      split at hstep
      · exact (spin_rearms hstep hs harmed).imp id fun hgo => ⟨hgo.1, count, rfl, hgo.2⟩
      · cases hstep
        exact hsame rfl
    · cases hstep
  | spin count epollErr =>
    simp only [listenerStep] at hstep
    split at hstep
    next n hn =>
      exact (spin_rearms hstep hs harmed).imp id fun hgo => ⟨hgo.1, count, rfl, hgo.2⟩
    · cases hstep
  | release =>
    simp only [listenerStep] at hstep
    split at hstep
    · split at hstep <;> cases hstep
      exact hsame rfl
    · cases hstep
  | acceptDone =>
    obtain ⟨l, _, rfl⟩ := Option.map_eq_some_iff.mp hstep
    exact hsame rfl
  | suspend =>
    cases hstep
    refine hsame ?_
    unfold socketListenerSuspend
    split <;> rfl
  | resume =>
    simp only [listenerStep, socketListenerResume] at hstep
    split at hstep
    next hgo =>
      split at hgo <;> cases hgo
      cases hstep
      exact hsame rfl
    next hgo =>
      split at hgo <;> cases hgo
      cases hstep
      exact hsame rfl
  | kill =>
    cases hstep
    refine hsame ?_
    unfold socketEventKill_listen socketListenerResume
    split <;> rfl

/-- **A suspended or overloaded listener stops accepting (proved)** in every run whose connections come
while it is both suspended and over its threshold, or neither; and a connection that comes otherwise does
not pause it. -/
theorem reachable_stopsAccepting {throttlingThreshold : ℕ}
    (h : ReachableVia (enabled listenerStep) SuspendedOverThreshold
      (listenerSubmitted throttlingThreshold) s) :
    AtMostOne s ∧ ∀ a s', listenerStep s a = some s' →
      (Pauses s a s' ↔ SuspendedOverThreshold s a) ∧ RearmsInOrder s a s' := by
  have hinv : ListenerInv s := h.invariant (listenerInv_submitted throttlingThreshold)
    fun _ _ _ hinv hcalm hstep => listenerStep_inv hinv hcalm hstep
  exact ⟨hinv.atMostOne, fun a s' hstep => ⟨pauses_iff hinv hstep, rearmsInOrder hinv hstep⟩⟩

end Runs

/-- Suspended while two threads run and the threshold is one; paused, resumed when one thread is left. -/
theorem reachable_stopsAccepting_paused : ∃ s : ListenerSOCK,
    runFrom listenerStep (listenerSubmitted 1) [.suspend, .epollWait, .poll ⟨true, true, 2, 2, 0⟩,
      .handle 2 0, .resume, .spin 1 0] = some s ∧ AtMostOne s ∧ s.armed = true := by
  have hrun : runFrom (guarded SuspendedOverThreshold listenerStep) (listenerSubmitted 1)
      [.suspend, .epollWait, .poll ⟨true, true, 2, 2, 0⟩, .handle 2 0, .resume, .spin 1 0] =
        some { listener := some ⟨1, 1⟩, flags := { inEngine := true }, armed := true } := by decide
  exact ⟨_, by decide, (reachable_stopsAccepting (reachableVia_of_runFrom hrun)).1, rfl⟩

/-- **A suspended listener with threshold `0` goes on accepting (proved).** -/
theorem stopsAccepting_fails : ¬ ∀ (throttlingThreshold : ℕ) (s : ListenerSOCK),
    Reachable (enabled listenerStep) (listenerSubmitted throttlingThreshold) s →
      AtMostOne s ∧ ∀ a s', listenerStep s a = some s' → Pauses s a s' ∧ RearmsInOrder s a s' := by
  intro h
  have hrun : runFrom listenerStep (listenerSubmitted 0) [.suspend, .epollWait,
      .poll ⟨true, true, 1, 1, 0⟩, .epollWait, .poll ⟨true, true, 1, 1, 0⟩] =
        some { listener := some ⟨0, 2⟩, flags := { inEngine := true, suspended := true }, armed := true,
               sinceSuspend := some 2 } := by decide
  have htwo := (h 0 _ (reachable_of_runFrom hrun)).1 2 rfl
  omega

end Connio
