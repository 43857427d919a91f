import Connio.Throttle

/-!
# The life of an asynchronous listener

The `SOCK` of a listener from `SocketEventWaitEx` to the callback that reports its end, with all threads that use
it (`sockcommon.c`, `sockunix.c`, `throttle.c`).  A step is one hold of `slock`, or one use of the listener between
two holds; a thread that is about to call `AThreadBegin` counts as begun.

* `TearDown`, `Listening` — where a thread is that tears the listener down, and the listener with its threads;
* `ListeningAction`, `listeningStep` — who moves and what is answered, and one step;
* `ListeningInv`, `listeningStep_inv` — **PROVED**: one thread or epoll has the listener as long as it is linked.

How the listener pauses and goes back is taken from `Throttle`.

A listening `SOCK` has no other event in the engine: `ConnAListenEx` has just allocated it.
-/

namespace Connio

open Connio.Lib

/-! ### The listener and its threads -/

/-- Where a thread is that tears a listener down in `HandleSocketEvent`. -/
inductive TearDown where
  /-- about to read `cs->listener->eventCallback` -/
  | notifying
  /-- in the loop that waits for the accept callbacks -/
  | waiting
  /-- has found no accept callback, about to free the listener -/
  | releasing
  /-- about to call the callback -/
  | calling
  deriving DecidableEq, Repr

structure Listening where
  sock : ListenerSOCK
  /-- the event has been linked before, as `SOCK_EVENT_TYPE_LISTEN` -/
  typed : Bool := false
  /-- `cb.arg` is not NULL -/
  linked : Bool := false
  /-- the calls of `SocketEventWaitEx` that returned 0 -/
  submissions : ℕ := 0
  /-- threads that have put the listener back and are about to read its `eventCallback` -/
  requeued : ℕ := 0
  /-- threads that have unlinked the listener, each with the number of the submission -/
  ending : List (TearDown × ℕ) := []
  /-- threads of `acceptPickup` -/
  accepting : ℕ := 0
  /-- connections that are pending on the socket -/
  backlog : ℕ := 0
  /-- the `AsyncListener`s that have been allocated, and freed -/
  allocated : ℕ := 0
  released : ℕ := 0
  /-- the submissions whose callback has been called -/
  calls : List ℕ := []
  /-- a NULL listener has been used, or `inAccept` has become negative -/
  crashed : Bool := false
  deriving DecidableEq, Repr

/-- What `SocketEventWaitEx` meets: memory for the `AsyncListener`, a valid socket, the errno of `epoll_ctl`. -/
structure ListenAnswers where
  throttlingThreshold : ℕ
  memory : Bool
  socket : Bool
  epollErr : Errno
  deriving DecidableEq, Repr

namespace Listening

variable (s : Listening)

/-- `asyncListenerRelease` of the listener that `SocketEventWaitEx` has allocated. -/
def refuse : Listening :=
  { s with sock := { s.sock with listener := none }, allocated := s.allocated + 1, released := s.released + 1 }

/-- `SocketEventWaitEx` for `SOCK_EVENT_TYPE_LISTEN` -/
def submit (a : ListenAnswers) : Listening :=
  -- ECONNABORTED and ENOMEM; there is no listener to release
  if s.sock.flags.killed ∨ a.memory = false then s
  -- ENOTSOCK and EBUSY
  else if a.socket = false ∨ s.linked then s.refuse
  else if a.epollErr ≠ 0 then
    { s with
      typed := true
      sock := { s.sock with error := 0, flags := { s.sock.flags with inEngine := false } } }.refuse
  else
    { s with
      typed := true
      linked := true
      submissions := s.submissions + 1
      allocated := s.allocated + 1
      sock := { s.sock with
        listener := some { throttlingThreshold := a.throttlingThreshold }
        error := 0
        flags := { s.sock.flags with inEngine := true }
        armed := true } }

/-- A thread uses `cs->listener`. -/
def useListener : Listening := { s with crashed := s.crashed || s.sock.listener.isNone }

/-- A round of `listenerSpinWhileThrottling`; a thread that has put the listener back reads its `eventCallback`
next. -/
def spin (count : ℕ) (epollErr : Errno) : Listening :=
  match listenerSpinWhileThrottling s.sock count epollErr with
  | some sock =>
    { s with
      sock := sock
      requeued := if sock.spinning = s.sock.spinning ∧ sock.begun = s.sock.begun then s.requeued + 1
        else s.requeued }
  | none => { s with crashed := true }

/-- `HandleSocketEvent` takes the lock. -/
def handle (count : ℕ) (epollErr : Errno) : Listening :=
  if listenerThrottling s.sock then s.spin count epollErr
  else
    { s with
      sock := { s.sock with waiting := s.sock.waiting + 1 }
      linked := false
      ending := (.notifying, s.submissions) :: s.ending
      -- `SeUnlinkCe` needs an event that is linked
      crashed := s.crashed || !s.linked }

/-- `_socketEventHandle`; a connection is taken from the backlog unless the listener has been killed. -/
def poll (w : ListenerWake) : Option Listening :=
  if s.sock.flags.inEngine then
    if w.accepted ∧ s.sock.flags.killed = false then
      if s.backlog = 0 then none
      else some { s with
        sock := ListenerSOCK.beginIf (socketEventHandle_listen s.sock w)
        backlog := s.backlog - 1
        accepting := if w.acceptEvent then s.accepting + 1 else s.accepting
        crashed := s.crashed || (w.acceptEvent && s.sock.listener.isNone) }
    else some { s with sock := ListenerSOCK.beginIf (socketEventHandle_listen s.sock w) }
  else some s

/-- `SocketEventKill`; `wakeUp`: the connection of `killActiveListener` gets into the backlog. -/
def kill (wakeUp : Bool) : Listening :=
  if s.typed then
    { s with sock := socketEventKill_listen s.sock, backlog := if wakeUp then s.backlog + 1 else s.backlog }
  else { s with sock := { (socketListenerResume s.sock).2 with error := Errno.ecanceled } }

/-- A thread that tears down the listener goes on. -/
def advance (x y : TearDown × ℕ) : Listening := { s with ending := y :: s.ending.erase x }

/-- The loop that waits for the accept callbacks. -/
def look (n : ℕ) : Listening :=
  match s.sock.listener with
  | some l => if l.inAccept < 1 then s.advance (.waiting, n) (.releasing, n) else s
  | none => { s with crashed := true }

/-- `asyncListenerRelease` -/
def release (n : ℕ) : Listening :=
  match s.sock.listener with
  | some _ =>
    { s with
      sock := { s.sock with listener := none, waiting := s.sock.waiting - 1 }
      released := s.released + 1 }.advance (.releasing, n) (.calling, n)
  | none => { s with crashed := true }

/-- `acceptPickup` ends. -/
def acceptDone : Listening :=
  match s.sock.listener with
  | some l =>
    if l.inAccept = 0 then { s with crashed := true }
    else { s with
      sock := { s.sock with listener := some { l with inAccept := l.inAccept - 1 } }
      accepting := s.accepting - 1 }
  | none => { s with crashed := true }

end Listening

inductive ListeningAction where
  /-- `SocketEventWaitEx` -/
  | submit (a : ListenAnswers)
  /-- a client connects -/
  | connection
  /-- `epoll_wait` reports the listener -/
  | epollWait
  /-- the poll thread takes the lock -/
  | poll (w : ListenerWake)
  /-- a thread enters `HandleSocketEvent` -/
  | handle (count : ℕ) (epollErr : Errno)
  /-- the delay of a spinning thread is over -/
  | spin (count : ℕ) (epollErr : Errno)
  /-- a thread that has put the listener back reads `cs->listener->eventCallback` and ends -/
  | finish
  /-- a thread that tears the listener down reads `cs->listener->eventCallback` -/
  | notify (n : ℕ)
  /-- it looks whether accept callbacks run -/
  | look (n : ℕ)
  /-- it frees the listener -/
  | release (n : ℕ)
  /-- it calls the callback -/
  | call (n : ℕ)
  /-- a thread of `acceptPickup` ends -/
  | acceptDone
  | suspend
  | resume
  /-- `SocketEventKill` -/
  | kill (wakeUp : Bool)
  deriving DecidableEq, Repr

/-- **One step;** `none` when the action is not enabled. -/
def listeningStep (s : Listening) : ListeningAction → Option Listening
  -- callers submit no second listener: `DebugAssert( NULL == cs->listener )`
  | .submit a => if s.sock.listener = none then some (s.submit a) else none
  | .connection => some { s with backlog := s.backlog + 1 }
  | .epollWait =>
    if s.sock.armed then some { s with sock := { s.sock with armed := false, reported := true } } else none
  | .poll w =>
    if s.sock.reported then { s with sock := { s.sock with reported := false } }.poll w else none
  | .handle count epollErr =>
    match s.sock.begun with
    | n + 1 => some ({ s with sock := { s.sock with begun := n } }.handle count epollErr)
    | 0 => none
  | .spin count epollErr =>
    match s.sock.spinning with
    | n + 1 => some ({ s with sock := { s.sock with spinning := n } }.spin count epollErr)
    | 0 => none
  | .finish => if 0 < s.requeued then some { s with requeued := s.requeued - 1 }.useListener else none
  | .notify n =>
    if (.notifying, n) ∈ s.ending then some (s.advance (.notifying, n) (.waiting, n)).useListener else none
  | .look n => if (.waiting, n) ∈ s.ending then some (s.look n) else none
  | .release n => if (.releasing, n) ∈ s.ending then some (s.release n) else none
  | .call n =>
    if (.calling, n) ∈ s.ending then
      some { s with ending := s.ending.erase (.calling, n), calls := n :: s.calls }
    else none
  | .acceptDone => if 0 < s.accepting then some s.acceptDone else none
  | .suspend => some { s with sock := (socketListenerSuspend s.sock).2 }
  | .resume => some { s with sock := (socketListenerResume s.sock).2 }
  | .kill wakeUp => some (s.kill wakeUp)

/-- A listening `SOCK` that `ConnAListenEx` has just allocated. -/
def Listening.new : Listening where
  sock := { listener := none, flags := {} }

/-! ### One thread or epoll has the listener -/

/-- The places that may have the listener: epoll, the array of the poll thread, a thread of `HandleSocketEvent`. -/
def ListenerSOCK.token (k : ListenerSOCK) : ℕ := k.armed.toNat + k.reported.toNat + k.begun + k.spinning

/-- **One place has a listener that is linked,** and none has one that is not. -/
structure TokenInv (k : ListenerSOCK) (linked : Bool) : Prop where
  token : k.token = linked.toNat
  inEngine : linked = true → k.begun = 0 → k.flags.inEngine = true
  paused : k.flags.paused = true → k.flags.inEngine = true ∧ k.armed = false ∧ k.reported = false
  spinning : 0 < k.spinning → k.flags.paused = true
  /-- a listener is unlinked while it is paused only when it has been killed -/
  killed : k.flags.paused = true → linked = false → k.flags.killed = true

/-- A listener that one thread had is back in epoll, or has left the engine. -/
inductive Back (k : ListenerSOCK) : ListenerSOCK → Prop
  | armed (error : Errno) : Back k { k with error := error, armed := true }
  | left (error : Errno) :
      Back k { k with
        error := error, flags := { k.flags with inEngine := false }, armed := false, begun := k.begun + 1 }

/-- What stays when a listener is handled. -/
structure SameListener (k k' : ListenerSOCK) : Prop where
  listener : k'.listener = k.listener
  killed : k'.flags.killed = k.flags.killed
  waiting : k'.waiting = k.waiting

section Token

variable {k k' : ListenerSOCK}

theorem complete_back (hin : k.flags.inEngine = true) : Back k (ListenerSOCK.beginIf k.complete) := by
  unfold ListenerSOCK.complete
  rw [if_pos hin]
  exact .left k.error

theorem requeue_back (hin : k.flags.inEngine = true) (epollErr : Errno) :
    Back k (ListenerSOCK.beginIf (k.requeue epollErr)) := by
  unfold ListenerSOCK.requeue
  split
  · exact .armed 0
  · unfold ListenerSOCK.complete
    rw [if_pos (by exact hin)]
    exact .left epollErr

theorem Back.same (h : Back k k') : SameListener k k' := by
  cases h <;> exact ⟨rfl, rfl, rfl⟩

/-- A listener no place has. -/
theorem token_zero (h : k.token = 0) :
    k.armed = false ∧ k.reported = false ∧ k.begun = 0 ∧ k.spinning = 0 := by
  unfold ListenerSOCK.token at h
  cases ha : k.armed <;> cases hr : k.reported <;> simp [ha, hr] at h ⊢
  exact h

/-- The listener goes back to one place. -/
theorem Back.tokenInv (h : Back k k') (hzero : k.token = 0) (hin : k.flags.inEngine = true)
    (hpaused : k.flags.paused = false) : TokenInv k' true := by
  obtain ⟨ha, hr, hb, hs⟩ := token_zero hzero
  have hnot : k'.flags.paused = true → False := fun hp => by
    cases h <;> exact absurd (hpaused.symm.trans hp) (by decide)
  have hnone : ¬ 0 < k'.spinning := by
    cases h <;> simp [hs]
  refine ⟨?_, fun _ hbegun => ?_, fun hp => (hnot hp).elim, fun h0 => absurd h0 hnone, fun hp => (hnot hp).elim⟩
  · cases h <;> simp [ListenerSOCK.token, *]
  · cases h with
    | armed => exact hin
    | left =>
      have hbegun : k.begun + 1 = 0 := hbegun
      omega

/-- **A round of the loop (proved):** the thread spins on, or the listener goes back. -/
theorem spin_tokenInv {count : ℕ} {epollErr : Errno} (hzero : k.token = 0) (hin : k.flags.inEngine = true)
    (hpaused : k.flags.paused = true) (h : listenerSpinWhileThrottling k count epollErr = some k') :
    TokenInv k' true ∧ SameListener k k' := by
  obtain ⟨ha, hr, hb, hs⟩ := token_zero hzero
  have hback := requeue_back (k := k.unpause) hin epollErr
  have hleave : TokenInv (ListenerSOCK.beginIf (sockEventListenerRequeue k epollErr)) true ∧
      SameListener k (ListenerSOCK.beginIf (sockEventListenerRequeue k epollErr)) :=
    ⟨hback.tokenInv hzero hin rfl, hback.same.listener, hback.same.killed, hback.same.waiting⟩
  have hspin : TokenInv { k with spinning := k.spinning + 1 } true ∧
      SameListener k { k with spinning := k.spinning + 1 } := by
    refine ⟨⟨?_, fun _ _ => hin, fun _ => ⟨hin, ha, hr⟩, fun _ => hpaused, fun _ hl => (by cases hl)⟩, rfl, rfl, rfl⟩
    simp [ListenerSOCK.token, ha, hr, hb, hs]
  unfold listenerSpinWhileThrottling at h
  split at h
  · cases h
    exact hleave
  · split at h
    · cases h
      exact hspin
    · obtain ⟨l, _, rfl⟩ := Option.map_eq_some_iff.mp h
      split
      · exact hspin
      · exact hleave

/-- The connection the poll thread takes from the backlog. -/
def ListenerSOCK.accept (k : ListenerSOCK) (w : ListenerWake) : ListenerSOCK :=
  if w.accepted = true ∧ k.flags.killed = false then acceptReady k w.acceptEvent else k

/-- **The poll thread (proved):** it pauses the listener, or the listener goes back. -/
theorem poll_tokenInv {w : ListenerWake} (hzero : k.token = 0) (hin : k.flags.inEngine = true)
    (hpaused : k.flags.paused = false) :
    TokenInv (ListenerSOCK.beginIf (socketEventHandle_listen k w)) true ∧
      SameListener (k.accept w) (ListenerSOCK.beginIf (socketEventHandle_listen k w)) := by
  have hback : ∀ {k₁ k₂ : ListenerSOCK}, Back k₁ k₂ → k₁.token = 0 → k₁.flags.inEngine = true →
      k₁.flags.paused = false → TokenInv k₂ true ∧ SameListener k₁ k₂ := fun h h0 h1 h2 =>
    ⟨h.tokenInv h0 h1 h2, h.same⟩
  cases hk : k.flags.killed with
  | true =>
    have heq : socketEventHandle_listen k w = k.complete := by simp [socketEventHandle_listen, hk]
    have hsame : k.accept w = k := by simp [ListenerSOCK.accept, hk]
    rw [heq, hsame]
    exact hback (complete_back hin) hzero hin hpaused
  | false =>
    cases ha : w.accepted with
    | false =>
      have heq : socketEventHandle_listen k w = k.requeue w.epollErr := by
        simp [socketEventHandle_listen, hk, ha]
      have hsame : k.accept w = k := by simp [ListenerSOCK.accept, ha]
      rw [heq, hsame]
      exact hback (requeue_back hin _) hzero hin hpaused
    | true =>
      have hsame : k.accept w = acceptReady k w.acceptEvent := by simp [ListenerSOCK.accept, ha, hk]
      rw [hsame, socketEventHandle_listen_eq hk ha]
      split
      · obtain ⟨harmed, hreported, hbegun, hspinning⟩ := token_zero hzero
        refine ⟨⟨?_, fun _ _ => hin, fun _ => ⟨hin, harmed, hreported⟩, fun _ => rfl, fun _ hl => (by cases hl)⟩,
          rfl, rfl, rfl⟩
        show k.armed.toNat + k.reported.toNat + (k.begun + 1) + k.spinning = 1
        rw [harmed, hreported, hbegun, hspinning]
        rfl
      · exact hback (requeue_back (k := acceptReady k w.acceptEvent) hin _) hzero hin hpaused

end Token

/-! ### The threads that tear the listener down -/

/-- The threads that tear the listener down and have not freed it. -/
def Listening.tearing (s : Listening) : ℕ := s.ending.countP fun x => decide (x.1 ≠ .calling)

/-- **A listener is there as long as something uses it,** and its accept threads are counted. -/
structure LedgerInv (s : Listening) : Prop where
  tearing : s.tearing + s.linked.toNat = s.sock.listener.isSome.toNat
  waiting : s.sock.waiting = s.tearing
  accepting : s.accepting = s.sock.listener.elim 0 AsyncListener.inAccept
  releasing : ∀ n, (.releasing, n) ∈ s.ending → s.accepting = 0
  /-- an `AsyncListener` is freed once -/
  ledger : s.allocated = s.released + s.sock.listener.isSome.toNat

/-- **A submission is unlinked once.** -/
structure NumberInv (s : Listening) : Prop where
  numbers : (s.ending.map Prod.snd ++ s.calls).Nodup
  bounded : ∀ n ∈ s.ending.map Prod.snd ++ s.calls, n ≤ s.submissions ∧ (s.linked = true → n < s.submissions)

/-- **The invariant of a listener.** -/
structure ListeningInv (s : Listening) : Prop where
  token : TokenInv s.sock s.linked
  ledger : LedgerInv s
  number : NumberInv s
  typed : s.linked = true → s.typed = true

section Steps

variable {s t : Listening}

theorem Listening.tearing_cons (x : TearDown × ℕ) (l : List (TearDown × ℕ)) :
    { s with ending := x :: l }.tearing = { s with ending := l }.tearing + if x.1 ≠ .calling then 1 else 0 := by
  simp [Listening.tearing, List.countP_cons]

/-- The thread that goes on, and the others. -/
theorem Listening.tearing_erase {x : TearDown × ℕ} (hx : x ∈ s.ending) :
    { s with ending := s.ending.erase x }.tearing + (if x.1 ≠ .calling then 1 else 0) = s.tearing := by
  have hperm := (List.perm_cons_erase hx).countP_eq fun x : TearDown × ℕ => decide (x.1 ≠ .calling)
  rw [List.countP_cons] at hperm
  simpa [Listening.tearing] using hperm.symm

/-- What the ledger speaks of. -/
theorem LedgerInv.congr (h : LedgerInv s) (hending : t.ending = s.ending) (hlinked : t.linked = s.linked)
    (hlistener : t.sock.listener = s.sock.listener) (hwaiting : t.sock.waiting = s.sock.waiting)
    (haccepting : t.accepting = s.accepting) (hallocated : t.allocated = s.allocated)
    (hreleased : t.released = s.released) : LedgerInv t := by
  have htearing : t.tearing = s.tearing := by rw [Listening.tearing, Listening.tearing, hending]
  exact ⟨by rw [htearing, hlinked, hlistener]; exact h.tearing, by rw [hwaiting, htearing]; exact h.waiting,
    by rw [haccepting, hlistener]; exact h.accepting, by rw [hending, haccepting]; exact h.releasing,
    by rw [hallocated, hreleased, hlistener]; exact h.ledger⟩

theorem NumberInv.congr (h : NumberInv s) (hending : t.ending = s.ending) (hcalls : t.calls = s.calls)
    (hsubmissions : t.submissions = s.submissions) (hlinked : t.linked = true → s.linked = true) :
    NumberInv t := by
  refine ⟨by rw [hending, hcalls]; exact h.numbers, fun n hn => ?_⟩
  rw [hending, hcalls] at hn
  rw [hsubmissions]
  exact ⟨(h.bounded n hn).1, fun hl => (h.bounded n hn).2 (hlinked hl)⟩

/-- A thread that tears the listener down goes on. -/
theorem NumberInv.advance (h : NumberInv s) {x y : TearDown × ℕ} (hx : x ∈ s.ending) (hxy : y.2 = x.2) :
    NumberInv (s.advance x y) := by
  have hperm : ((s.advance x y).ending.map Prod.snd ++ s.calls).Perm (s.ending.map Prod.snd ++ s.calls) := by
    refine List.Perm.append_right _ ?_
    rw [Listening.advance, List.map_cons, hxy]
    exact ((List.perm_cons_erase hx).map Prod.snd).symm
  exact ⟨hperm.nodup_iff.mpr h.numbers, fun n hn => h.bounded n (hperm.mem_iff.mp hn)⟩

theorem LedgerInv.advance (h : LedgerInv s) {x y : TearDown × ℕ} (hx : x ∈ s.ending) (hxc : x.1 ≠ .calling)
    (hyc : y.1 ≠ .calling) (hy : y.1 = .releasing → s.accepting = 0) : LedgerInv (s.advance x y) := by
  have htearing : (s.advance x y).tearing = s.tearing := by
    have hcons := Listening.tearing_cons (s := s) y (s.ending.erase x)
    have herase := Listening.tearing_erase hx
    rw [if_pos hyc] at hcons
    rw [if_pos hxc] at herase
    exact hcons.trans herase
  refine ⟨by rw [htearing]; exact h.tearing, by rw [htearing]; exact h.waiting, h.accepting, fun n hn => ?_, h.ledger⟩
  rcases List.mem_cons.mp hn with heq | hn
  · exact hy (by rw [← heq])
  · exact h.releasing n (List.mem_of_mem_erase hn)

/-- A listener is linked when a place has it. -/
theorem TokenInv.linked {k : ListenerSOCK} {linked : Bool} (h : TokenInv k linked) (hpos : 0 < k.token) :
    linked = true ∧ k.token = 1 := by
  have htoken := h.token
  cases linked with
  | true => exact ⟨rfl, htoken⟩
  | false =>
    simp only [Bool.toNat_false] at htoken
    omega

/-- Nothing is under way on a `SOCK` without a listener. -/
theorem ListeningInv.unlinked (h : ListeningInv s) (hnone : s.sock.listener = none) :
    s.linked = false ∧ s.tearing = 0 ∧ s.accepting = 0 := by
  have htearing := h.ledger.tearing
  have haccepting := h.ledger.accepting
  rw [hnone] at htearing haccepting
  simp only [Option.isSome_none, Bool.toNat_false] at htearing
  refine ⟨?_, by omega, haccepting⟩
  cases hl : s.linked with
  | false => rfl
  | true =>
    rw [hl, Bool.toNat_true] at htearing
    omega

/-- A listener that is linked, or that a thread tears down, is there. -/
theorem ListeningInv.listener (h : ListeningInv s) (hused : 0 < s.tearing + s.linked.toNat) :
    ∃ l, s.sock.listener = some l := by
  have htearing := h.ledger.tearing
  cases hs : s.sock.listener with
  | some l => exact ⟨l, rfl⟩
  | none =>
    rw [hs, Option.isSome_none, Bool.toNat_false] at htearing
    omega

/-- A thread that tears the listener down finds it. -/
theorem ListeningInv.listener_of_ending (h : ListeningInv s) {x : TearDown × ℕ} (hx : x ∈ s.ending)
    (hcalling : x.1 ≠ .calling) : ∃ l, s.sock.listener = some l := by
  have hpos : 0 < s.tearing := List.countP_pos_iff.mpr ⟨x, hx, by simpa using hcalling⟩
  exact h.listener (by omega)

/-- **`SocketEventWaitEx` (proved).** -/
theorem ListeningInv.submit (h : ListeningInv s) (hnone : s.sock.listener = none) (a : ListenAnswers) :
    ListeningInv (s.submit a) := by
  obtain ⟨hlinked, htearing, haccepting⟩ := h.unlinked hnone
  have hledger := h.ledger.ledger
  rw [hnone] at hledger
  have hzero : s.sock.token = 0 := by rw [h.token.token, hlinked]; rfl
  have hrefused : ∀ {r : Listening}, r.sock.listener = none → r.ending = s.ending → r.linked = s.linked →
      r.sock.waiting = s.sock.waiting → r.accepting = s.accepting → r.allocated = s.allocated + 1 →
      r.released = s.released + 1 → LedgerInv r := by
    intro r h1 h2 h3 h4 h5 h6 h7
    have ht : r.tearing = s.tearing := by rw [Listening.tearing, Listening.tearing, h2]
    refine ⟨by rw [ht, h3, h1, ← hnone]; exact h.ledger.tearing, by rw [h4, ht]; exact h.ledger.waiting,
      by rw [h5, h1]; exact haccepting, fun n _ => h5.trans haccepting, ?_⟩
    rw [h6, h7, h1, hledger]
    simp
  unfold Listening.submit
  split
  · exact h
  next hgo =>
    obtain ⟨hkilled, _⟩ := not_or.mp hgo
    have hpaused : s.sock.flags.paused = false := by
      cases hp : s.sock.flags.paused with
      | false => rfl
      | true => exact absurd (h.token.killed hp hlinked) hkilled
    split
    · refine ⟨⟨h.token.token, h.token.inEngine, h.token.paused, h.token.spinning, h.token.killed⟩,
        hrefused rfl rfl rfl rfl rfl rfl rfl, h.number.congr rfl rfl rfl id, h.typed⟩
    split
    · refine ⟨⟨h.token.token, fun hl => ?_, fun hp => ?_, h.token.spinning, h.token.killed⟩,
        hrefused rfl rfl rfl rfl rfl rfl rfl, h.number.congr rfl rfl rfl id, fun _ => rfl⟩
      · exact absurd (hlinked.symm.trans hl) (by decide)
      · exact absurd (hpaused.symm.trans hp) (by decide)
    · obtain ⟨_, hr, hb, hsp⟩ := token_zero hzero
      refine ⟨⟨?_, fun _ _ => rfl, fun hp => ?_, h.token.spinning, fun hp => ?_⟩, ⟨?_, ?_, ?_, ?_, ?_⟩,
        ⟨h.number.numbers, fun n hn => ?_⟩, fun _ => rfl⟩
      · show true.toNat + s.sock.reported.toNat + s.sock.begun + s.sock.spinning = 1
        rw [hr, hb, hsp]
        rfl
      · exact absurd (hpaused.symm.trans hp) (by decide)
      · exact absurd (hpaused.symm.trans hp) (by decide)
      · show s.tearing + 1 = 1
        omega
      · exact h.ledger.waiting
      · exact haccepting
      · exact fun n _ => haccepting
      · show s.allocated + 1 = s.released + 1
        rw [hledger]
        rfl
      · have hle := (h.number.bounded n hn).1
        exact ⟨Nat.le_succ_of_le hle, fun _ => Nat.lt_succ_of_le hle⟩

/-- The poll thread has the listener. -/
theorem ListeningInv.taken (h : ListeningInv s) (hr : s.sock.reported = true) :
    ListenerSOCK.token { s.sock with reported := false } = 0 ∧ s.sock.flags.inEngine = true ∧
      s.sock.flags.paused = false ∧ s.linked = true := by
  have hpos : 0 < s.sock.token := by
    rw [ListenerSOCK.token, hr, Bool.toNat_true]
    omega
  obtain ⟨hlinked, hone⟩ := h.token.linked hpos
  have hzero : ListenerSOCK.token { s.sock with reported := false } = 0 := by
    simp only [ListenerSOCK.token, hr, Bool.toNat_true, Bool.toNat_false] at hone ⊢
    omega
  obtain ⟨_, _, hbegun, _⟩ := token_zero hzero
  refine ⟨hzero, h.token.inEngine hlinked hbegun, ?_, hlinked⟩
  cases hp : s.sock.flags.paused with
  | false => rfl
  | true => exact absurd (hr.symm.trans (h.token.paused hp).2.2) (by decide)

/-- **The poll thread (proved).** -/
theorem ListeningInv.poll (h : ListeningInv s) (hr : s.sock.reported = true) {w : ListenerWake}
    (ht : Listening.poll { s with sock := { s.sock with reported := false } } w = some t) : ListeningInv t := by
  obtain ⟨hzero, hin, hpaused, hlinked⟩ := h.taken hr
  obtain ⟨htoken, hsame⟩ := poll_tokenInv (k := { s.sock with reported := false }) (w := w) hzero hin hpaused
  obtain ⟨l, hl⟩ := h.listener (by rw [hlinked, Bool.toNat_true]; omega)
  have hsome : s.sock.listener.isSome = true := by rw [hl]; rfl
  unfold Listening.poll at ht
  rw [if_pos hin] at ht
  split at ht
  next htaken =>
    obtain ⟨hacc, hkilled⟩ := htaken
    split at ht <;> cases ht
    have hlistener := hsame.listener
    rw [ListenerSOCK.accept, if_pos ⟨hacc, hkilled⟩] at hlistener
    have hkept : (acceptReady { s.sock with reported := false } w.acceptEvent).listener.isSome = true := by
      simp only [acceptReady, hl]
      split <;> rfl
    have hwaiting := hsame.waiting
    rw [ListenerSOCK.accept, if_pos ⟨hacc, hkilled⟩] at hwaiting
    refine ⟨by rw [hlinked]; exact htoken, ⟨?_, hwaiting.trans h.ledger.waiting, ?_, fun n hn => ?_, ?_⟩,
      h.number.congr rfl rfl rfl id, h.typed⟩
    · show s.tearing + s.linked.toNat = _
      rw [hlistener, hkept, h.ledger.tearing, hsome]
    · show (if w.acceptEvent then s.accepting + 1 else s.accepting) = _
      rw [hlistener, h.ledger.accepting, hl]
      simp only [acceptReady, hl]
      cases w.acceptEvent <;> rfl
    · -- a thread that frees the listener has unlinked it
      have htearing := h.ledger.tearing
      have hmem : 0 < s.tearing := List.countP_pos_iff.mpr ⟨_, hn, by simp⟩
      rw [hlinked, hsome, Bool.toNat_true] at htearing
      omega
    · rw [hlistener, hkept, ← hsome]
      exact h.ledger.ledger
  next hnot =>
    cases ht
    have hkeep : ListenerSOCK.accept { s.sock with reported := false } w = { s.sock with reported := false } :=
      if_neg hnot
    rw [hkeep] at hsame
    exact ⟨by rw [hlinked]; exact htoken, h.ledger.congr rfl rfl hsame.listener hsame.waiting rfl rfl rfl,
      h.number.congr rfl rfl rfl id, h.typed⟩

/-- A thread that spins finds the listener. -/
theorem ListeningInv.spin_some (h : ListeningInv s) (hlinked : s.linked = true) {k : ListenerSOCK}
    (hlistener : k.listener = s.sock.listener) (count : ℕ) (epollErr : Errno) :
    ∃ k', listenerSpinWhileThrottling k count epollErr = some k' := by
  obtain ⟨l, hl⟩ := h.listener (by rw [hlinked, Bool.toNat_true]; omega)
  unfold listenerSpinWhileThrottling
  rw [hlistener, hl]
  split
  · exact ⟨_, rfl⟩
  split <;> exact ⟨_, rfl⟩

/-- **A round of the loop (proved).** -/
theorem ListeningInv.spin (h : ListeningInv s) {k : ListenerSOCK} (hzero : k.token = 0) (hlinked : s.linked = true)
    (hlistener : k.listener = s.sock.listener) (hwaiting : k.waiting = s.sock.waiting)
    (hin : k.flags.inEngine = true) (hpaused : k.flags.paused = true) (count : ℕ) (epollErr : Errno) :
    ListeningInv (Listening.spin { s with sock := k } count epollErr) := by
  obtain ⟨k', hk'⟩ := h.spin_some hlinked hlistener count epollErr
  obtain ⟨htoken, hsame⟩ := spin_tokenInv hzero hin hpaused hk'
  unfold Listening.spin
  rw [hk']
  exact ⟨by rw [hlinked]; exact htoken,
    h.ledger.congr rfl rfl (hsame.listener.trans hlistener) (hsame.waiting.trans hwaiting) rfl rfl rfl,
    h.number.congr rfl rfl rfl id, h.typed⟩

/-- A thread takes the listener over. -/
theorem TokenInv.resumeThread {k : ListenerSOCK} {linked : Bool} (h : TokenInv k linked) (begun spinning : ℕ)
    (hone : begun + spinning + 1 = k.begun + k.spinning) :
    linked = true ∧ ListenerSOCK.token { k with begun := begun, spinning := spinning } = 0 := by
  have hpos : 0 < k.token := by
    unfold ListenerSOCK.token
    omega
  obtain ⟨hlinked, htoken⟩ := h.linked hpos
  have htoken : k.armed.toNat + k.reported.toNat + k.begun + k.spinning = 1 := htoken
  refine ⟨hlinked, ?_⟩
  show k.armed.toNat + k.reported.toNat + begun + spinning = 0
  omega

/-- **`HandleSocketEvent` (proved).** -/
theorem ListeningInv.handle (h : ListeningInv s) {n : ℕ} (hn : s.sock.begun = n + 1) (count : ℕ) (epollErr : Errno) :
    ListeningInv (Listening.handle { s with sock := { s.sock with begun := n } } count epollErr) := by
  obtain ⟨hlinked, hzero⟩ := h.token.resumeThread n s.sock.spinning (by omega)
  unfold Listening.handle
  split
  next hthrottling =>
    have hpaused : s.sock.flags.paused = true := (Bool.and_eq_true_iff.mp hthrottling).2
    exact h.spin hzero hlinked rfl rfl (h.token.paused hpaused).1 hpaused count epollErr
  next hnot =>
    obtain ⟨_, _, _, hspinning⟩ := token_zero hzero
    have hspinning : s.sock.spinning = 0 := hspinning
    have hkilled : s.sock.flags.paused = true → s.sock.flags.killed = true := by
      intro hp
      by_contra hk
      exact hnot (by simp [listenerThrottling, hp, hk])
    have htearing := h.ledger.tearing
    rw [hlinked, Bool.toNat_true] at htearing
    refine ⟨⟨hzero, fun hl => (by cases hl), h.token.paused, fun h0 => ?_, fun hp _ => hkilled hp⟩,
      ⟨?_, ?_, h.ledger.accepting, fun m hm => ?_, h.ledger.ledger⟩, ⟨?_, fun m hm => ?_⟩, fun hl => (by cases hl)⟩
    · exact absurd h0 (by rw [show _ = s.sock.spinning from rfl, hspinning]; decide)
    · rw [← htearing]
      exact Listening.tearing_cons (s := s) (.notifying, s.submissions) s.ending
    · show s.sock.waiting + 1 = _
      rw [h.ledger.waiting]
      exact (Listening.tearing_cons (s := s) (.notifying, s.submissions) s.ending).symm
    · rcases List.mem_cons.mp hm with heq | hm
      · cases heq
      · exact h.ledger.releasing m hm
    · refine List.nodup_cons.mpr ⟨fun hmem => ?_, h.number.numbers⟩
      exact Nat.lt_irrefl _ ((h.number.bounded _ hmem).2 hlinked)
    · refine ⟨?_, fun hl => (by cases hl)⟩
      rcases List.mem_cons.mp hm with rfl | hm
      · exact Nat.le_refl _
      · exact (h.number.bounded m hm).1

/-- A thread that frees the listener is the only one that tears it down. -/
theorem ListeningInv.releasing_alone (h : ListeningInv s) {n : ℕ} (hn : (.releasing, n) ∈ s.ending) :
    s.tearing = 1 ∧ s.linked = false := by
  have hpos : 0 < s.tearing := List.countP_pos_iff.mpr ⟨_, hn, by simp⟩
  have htearing := h.ledger.tearing
  have hle := Bool.toNat_le s.sock.listener.isSome
  refine ⟨by omega, ?_⟩
  cases hlinked : s.linked with
  | false => rfl
  | true =>
    rw [hlinked, Bool.toNat_true] at htearing
    omega

/-- The listener is freed. -/
theorem ListeningInv.release (h : ListeningInv s) {n : ℕ} (hn : (.releasing, n) ∈ s.ending) :
    ListeningInv (s.release n) := by
  obtain ⟨hone, hlinked⟩ := h.releasing_alone hn
  obtain ⟨l, hl⟩ := h.listener (by omega)
  have hwaiting := h.ledger.waiting
  have hledger := h.ledger.ledger
  rw [hl] at hledger
  simp only [Option.isSome_some, Bool.toNat_true] at hledger
  have haccepting := h.ledger.releasing n hn
  unfold Listening.release
  rw [hl]
  have hafter : Listening.tearing { s with ending := (.calling, n) :: s.ending.erase (.releasing, n) } = 0 := by
    have herase := Listening.tearing_erase hn
    rw [if_pos (by simp), hone] at herase
    have hcons := Listening.tearing_cons (s := s) (.calling, n) (s.ending.erase (.releasing, n))
    rw [if_neg (by simp)] at hcons
    omega
  refine ⟨⟨h.token.token, h.token.inEngine, h.token.paused, h.token.spinning, h.token.killed⟩,
    ⟨?_, ?_, haccepting, fun m _ => haccepting, hledger⟩, ?_, h.typed⟩
  · show Listening.tearing { s with ending := (.calling, n) :: s.ending.erase (.releasing, n) } + s.linked.toNat = 0
    rw [hafter, hlinked]
    rfl
  · show s.sock.waiting - 1 = Listening.tearing { s with ending := (.calling, n) :: s.ending.erase (.releasing, n) }
    rw [hafter, hwaiting, hone]
  · have hnumber := h.number.advance hn (y := (.calling, n)) rfl
    exact ⟨hnumber.numbers, hnumber.bounded⟩

/-- **Every step (proved)** keeps the invariant of a listener. -/
theorem listeningStep_inv {a : ListeningAction} (h : ListeningInv s) (hs : listeningStep s a = some t) :
    ListeningInv t := by
  have hsame : ∀ {k : ListenerSOCK}, k.flags.inEngine = s.sock.flags.inEngine →
      k.flags.paused = s.sock.flags.paused → (s.sock.flags.killed = true → k.flags.killed = true) →
      k.token = s.sock.token → k.begun = s.sock.begun → k.spinning = s.sock.spinning → k.armed = s.sock.armed →
      k.reported = s.sock.reported → TokenInv k s.linked := by
    intro k h1 h2 h3 h4 h5 h6 h7 h8
    exact ⟨h4.trans h.token.token, fun hl hb => h1.trans (h.token.inEngine hl (h5.symm.trans hb)),
      fun hp => by rw [h1, h7, h8]; exact h.token.paused (h2.symm.trans hp),
      fun hp => h2.trans (h.token.spinning (h6 ▸ hp)), fun hp hl => h3 (h.token.killed (h2.symm.trans hp) hl)⟩
  cases a with
  | submit a =>
    simp only [listeningStep] at hs
    split at hs <;> cases hs
    next hnone => exact h.submit hnone a
  | connection =>
    cases hs
    exact ⟨h.token, h.ledger.congr rfl rfl rfl rfl rfl rfl rfl, h.number.congr rfl rfl rfl id, h.typed⟩
  | epollWait =>
    simp only [listeningStep] at hs
    split at hs <;> cases hs
    next harmed =>
      have hnot : s.sock.flags.paused = true → False := fun hp =>
        absurd (harmed.symm.trans (h.token.paused hp).2.1) (by decide)
      have hpos : 0 < s.sock.token := by
        rw [ListenerSOCK.token, harmed, Bool.toNat_true]
        omega
      obtain ⟨hlinked, hone⟩ := h.token.linked hpos
      have hreported : s.sock.reported = false := by
        unfold ListenerSOCK.token at hone
        cases hr : s.sock.reported with
        | false => rfl
        | true =>
          rw [harmed, hr, Bool.toNat_true] at hone
          omega
      refine ⟨⟨?_, h.token.inEngine, fun hp => (hnot hp).elim, h.token.spinning, fun hp => (hnot hp).elim⟩,
        h.ledger.congr rfl rfl rfl rfl rfl rfl rfl, h.number.congr rfl rfl rfl id, h.typed⟩
      rw [← h.token.token]
      show false.toNat + true.toNat + _ + _ = s.sock.armed.toNat + s.sock.reported.toNat + _ + _
      rw [harmed, hreported]
      rfl
  | poll w =>
    simp only [listeningStep] at hs
    split at hs
    next hr => exact h.poll hr hs
    · cases hs
  | handle count epollErr =>
    simp only [listeningStep] at hs
    split at hs <;> cases hs
    next n hn => exact h.handle hn count epollErr
  | spin count epollErr =>
    simp only [listeningStep] at hs
    split at hs <;> cases hs
    next n hn =>
      obtain ⟨hlinked, hzero⟩ := h.token.resumeThread s.sock.begun n (by omega)
      have hpaused := h.token.spinning (by omega)
      exact h.spin hzero hlinked rfl rfl (h.token.paused hpaused).1 hpaused count epollErr
  | finish =>
    simp only [listeningStep] at hs
    split at hs <;> cases hs
    exact ⟨h.token, h.ledger.congr rfl rfl rfl rfl rfl rfl rfl, h.number.congr rfl rfl rfl id, h.typed⟩
  | notify n =>
    simp only [listeningStep] at hs
    split at hs <;> cases hs
    next hn =>
      have hledger := h.ledger.advance (y := (.waiting, n)) hn (by simp) (by simp) (fun hr => by cases hr)
      have hnumber := h.number.advance (y := (.waiting, n)) hn rfl
      exact ⟨h.token, hledger.congr rfl rfl rfl rfl rfl rfl rfl, hnumber.congr rfl rfl rfl id, h.typed⟩
  | look n =>
    simp only [listeningStep] at hs
    split at hs <;> cases hs
    next hn =>
      unfold Listening.look
      split
      next l hl =>
        split
        next hnone =>
          have haccepting : s.accepting = 0 := by
            rw [h.ledger.accepting, hl]
            exact Nat.lt_one_iff.mp hnone
          exact ⟨h.token, h.ledger.advance hn (by simp) (by simp) (fun _ => haccepting), h.number.advance hn rfl,
            h.typed⟩
        · exact h
      · exact ⟨h.token, h.ledger.congr rfl rfl rfl rfl rfl rfl rfl, h.number.congr rfl rfl rfl id, h.typed⟩
  | release n =>
    simp only [listeningStep] at hs
    split at hs <;> cases hs
    next hn => exact h.release hn
  | call n =>
    simp only [listeningStep] at hs
    split at hs <;> cases hs
    next hn =>
      have htearing : Listening.tearing { s with ending := s.ending.erase (.calling, n) } = s.tearing := by
        have herase := Listening.tearing_erase hn
        rwa [if_neg (by simp)] at herase
      have hperm : ((s.ending.erase (.calling, n)).map Prod.snd ++ n :: s.calls).Perm
          (s.ending.map Prod.snd ++ s.calls) := by
        refine List.perm_middle.trans ?_
        rw [← List.cons_append]
        exact List.Perm.append_right _ ((List.perm_cons_erase hn).map Prod.snd).symm
      refine ⟨h.token, ⟨?_, ?_, h.ledger.accepting, fun m hm => ?_, h.ledger.ledger⟩,
        ⟨hperm.nodup_iff.mpr h.number.numbers, fun m hm => h.number.bounded m (hperm.mem_iff.mp hm)⟩, h.typed⟩
      · rw [← h.ledger.tearing, ← htearing]
        rfl
      · show s.sock.waiting = Listening.tearing { s with ending := s.ending.erase (.calling, n) }
        rw [htearing]
        exact h.ledger.waiting
      · exact h.ledger.releasing m (List.mem_of_mem_erase hm)
  | acceptDone =>
    simp only [listeningStep] at hs
    split at hs <;> cases hs
    next hpos =>
      unfold Listening.acceptDone
      have haccepting := h.ledger.accepting
      split
      next l hl =>
        rw [hl] at haccepting
        split
        · exact ⟨h.token, h.ledger.congr rfl rfl rfl rfl rfl rfl rfl, h.number.congr rfl rfl rfl id, h.typed⟩
        · refine ⟨⟨h.token.token, h.token.inEngine, h.token.paused, h.token.spinning, h.token.killed⟩,
            ⟨?_, h.ledger.waiting, ?_, fun m hm => ?_, ?_⟩, h.number.congr rfl rfl rfl id, h.typed⟩
          · have htearing := h.ledger.tearing
            rw [hl] at htearing
            exact htearing
          · show s.accepting - 1 = l.inAccept - 1
            rw [haccepting]
            rfl
          · have hzero := h.ledger.releasing m hm
            omega
          · have hledger := h.ledger.ledger
            rw [hl] at hledger
            exact hledger
      · exact ⟨h.token, h.ledger.congr rfl rfl rfl rfl rfl rfl rfl, h.number.congr rfl rfl rfl id, h.typed⟩
  | suspend =>
    cases hs
    unfold socketListenerSuspend
    split
    · exact ⟨hsame rfl rfl id rfl rfl rfl rfl rfl, h.ledger.congr rfl rfl rfl rfl rfl rfl rfl,
        h.number.congr rfl rfl rfl id, h.typed⟩
    · exact h
  | resume =>
    cases hs
    unfold socketListenerResume
    split
    · exact ⟨hsame rfl rfl id rfl rfl rfl rfl rfl, h.ledger.congr rfl rfl rfl rfl rfl rfl rfl,
        h.number.congr rfl rfl rfl id, h.typed⟩
    · exact h
  | kill wakeUp =>
    cases hs
    unfold Listening.kill socketEventKill_listen socketListenerResume
    split
    · split <;> exact ⟨hsame rfl rfl (fun _ => rfl) rfl rfl rfl rfl rfl, h.ledger.congr rfl rfl rfl rfl rfl rfl rfl,
        h.number.congr rfl rfl rfl id, h.typed⟩
    · split <;> exact ⟨hsame rfl rfl id rfl rfl rfl rfl rfl, h.ledger.congr rfl rfl rfl rfl rfl rfl rfl,
        h.number.congr rfl rfl rfl id, h.typed⟩

theorem listeningInv_new : ListeningInv Listening.new where
  token := ⟨rfl, fun h => (by cases h), fun h => (by cases h), fun h => absurd h (by decide), fun h => (by cases h)⟩
  ledger := ⟨rfl, rfl, rfl, fun n h => (by cases h), rfl⟩
  number := ⟨List.nodup_nil, fun n h => (by cases h)⟩
  typed := fun h => by cases h

/-- **Every listener (proved)** keeps the invariant, whoever moves. -/
theorem reachable_listeningInv {ok : Listening → ListeningAction → Prop}
    (h : ReachableVia (enabled listeningStep) ok Listening.new s) : ListeningInv s :=
  h.invariant listeningInv_new fun _ _ _ hinv _ hs => listeningStep_inv hinv hs

/-- A thread that is about to handle the listener finds it linked. -/
theorem ListeningInv.begun_linked (h : ListeningInv s) (hb : 0 < s.sock.begun + s.sock.spinning) :
    s.linked = true := by
  refine (h.token.linked ?_).1
  show 0 < s.sock.armed.toNat + s.sock.reported.toNat + s.sock.begun + s.sock.spinning
  omega

end Steps

end Connio
