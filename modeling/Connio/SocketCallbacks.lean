import Connio.Socket
import Connio.Listening

/-!
# One callback for each submission

The three `SocketEvent`s of a `SOCK` that is no listener, with the poll threads, the threads of `HandleSocketEvent`
and a consumer that submits, kills and closes as it likes (`sockcommon.c`, `sockunix.c`).  A step is one hold of
`slock`.  `epoll_wait` and the timeout lists may report an event at any time, also one that has left the engine.

* `EventLog`, `EngineSOCK` — what has happened to an event so far, and the `SOCK` with its threads;
* `EngineAction`, `engineStep` — who moves, and one step;
* `OneCallback` — a submission is called back once at most, and the flag says who is in the engine;
* `EventInv`, `EngineInv`, `engineStep_inv` — **PROVED**: a submission is completed once and unlinked once;
* `oneCallback` — **PROVED**: for every event, and with the same numbering for a listener.
-/

namespace Connio

open Connio.Lib

/-! ### The events of a socket -/

structure EventLog where
  /-- the calls of `SocketEventWaitEx` that returned 0 -/
  submissions : ℕ := 0
  /-- the calls of `SocketEventComplete` that returned TRUE -/
  completions : ℕ := 0
  /-- the threads of `HandleSocketEvent` that have unlinked the event -/
  unlinked : ℕ := 0
  deriving DecidableEq, Repr

structure EngineSOCK where
  sock : SOCK := {}
  log : Slots EventLog := ⟨{}, {}, {}⟩
  /-- threads that have unlinked an event and are about to call its callback, each with the number of the
  submission -/
  captured : List (ConnEventClass × ℕ) := []
  /-- the submissions whose callback has been called -/
  calls : List (ConnEventClass × ℕ) := []
  /-- a thread has found its event unlinked -/
  spurious : Bool := false
  deriving DecidableEq, Repr

inductive EngineAction where
  /-- `SocketEventWaitEx` -/
  | submit (type : SocketEventType) (cbArg : EventId) (epollErr : Errno)
  /-- the poll thread handles an entry of its array -/
  | ready (k : ConnEventClass) (events : PollEvents)
  /-- the poll thread handles an event of an expired list -/
  | expire (k : ConnEventClass)
  /-- `SocketEventKill` -/
  | kill (k : ConnEventClass)
  /-- a thread of `HandleSocketEvent` takes the lock -/
  | handle (k : ConnEventClass)
  /-- it calls the callback -/
  | call (k : ConnEventClass) (n : ℕ)
  /-- the socket is opened or closed -/
  | number (n : Option ℕ)
  deriving DecidableEq, Repr

/-- The completions of an event are counted. -/
def EventLog.complete (l : EventLog) (complete : Bool) : EventLog :=
  { l with completions := l.completions + complete.toNat }

/-- **One step;** `none` when the action is not enabled. -/
def engineStep (s : EngineSOCK) : EngineAction → Option EngineSOCK
  | .submit type cbArg epollErr =>
    match socketEventSlot (sockEventTranslate type), socketEventWaitEx s.sock type cbArg epollErr with
    | some k, (0, sock) =>
      some { s with
        sock := sock, log := s.log.set k { s.log.get k with submissions := (s.log.get k).submissions + 1 } }
    | _, (_, sock) => some { s with sock := sock }
  | .ready k events =>
    some { s with
      sock := pollReady s.sock k events
      log := s.log.set k ((s.log.get k).complete
        ((s.sock.event.get k).inEngine && (socketEventHandle (s.sock.event.get k) events).1)) }
  | .expire k =>
    some { s with
      sock := pollTimeout s.sock k
      log := s.log.set k ((s.log.get k).complete (s.sock.event.get k).complete.1) }
  | .kill k =>
    some { s with
      sock := socketEventKill s.sock k
      log := s.log.set k ((s.log.get k).complete (sockEventKill (s.sock.event.get k)).1) }
  | .handle k =>
    if 0 < (s.sock.event.get k).begun then
      match handleSocketEvent s.sock k with
      | some (_, _, _, sock) =>
        some { s with
          sock := sock
          log := s.log.set k { s.log.get k with unlinked := (s.log.get k).unlinked + 1 }
          captured := (k, (s.log.get k).submissions) :: s.captured }
      | none => some { s with spurious := true }
    else none
  | .call k n =>
    if (k, n) ∈ s.captured then
      some { s with captured := s.captured.erase (k, n), calls := (k, n) :: s.calls }
    else none
  | .number n => some { s with sock := { s.sock with number := n } }

/-- **A submission is called back once at most,** and not while it is linked; no thread finds its event unlinked;
`FSE_IN_ENGINE` is set exactly while an event is linked and its submission has not been completed. -/
structure OneCallback (s : EngineSOCK) : Prop where
  once : s.calls.Nodup
  submitted : ∀ k n, (k, n) ∈ s.calls → n ≤ (s.log.get k).submissions ∧
    ((s.sock.event.get k).arg.isSome = true → n < (s.log.get k).submissions)
  spurious : s.spurious = false
  inEngine : ∀ k, (s.sock.event.get k).inEngine = true ↔
    (s.sock.event.get k).arg.isSome = true ∧ (s.log.get k).completions < (s.log.get k).submissions

/-! ### A submission is completed once and unlinked once -/

/-- **One event:** what is linked is in the engine or has a thread, and all of it is counted. -/
structure EventInv (se : SocketEvent) (l : EventLog) : Prop where
  linked : se.inEngine.toNat + se.begun = se.arg.isSome.toNat
  submissions : l.submissions = l.unlinked + se.arg.isSome.toNat
  completions : l.completions = l.unlinked + se.begun

section Events

variable {se se' : SocketEvent} {l : EventLog}

theorem EventInv.congr (h : EventInv se l) (harg : se'.arg = se.arg) (hin : se'.inEngine = se.inEngine)
    (hbegun : se'.begun = se.begun) : EventInv se' l := by
  constructor
  · rw [harg, hin, hbegun]
    exact h.linked
  · rw [harg]
    exact h.submissions
  · rw [hbegun]
    exact h.completions

/-- **`SocketEventComplete` (proved)** takes an event out of the engine once. -/
theorem EventInv.complete (h : EventInv se l) : EventInv (beginIf se.complete) (l.complete se.complete.1) := by
  unfold SocketEvent.complete
  cases hin : se.inEngine with
  | true =>
    have hlinked := h.linked
    rw [hin, Bool.toNat_true] at hlinked
    refine ⟨?_, h.submissions, ?_⟩
    · show 0 + (se.begun + 1) = se.arg.isSome.toNat
      omega
    · show l.completions + 1 = l.unlinked + (se.begun + 1)
      rw [h.completions]
      omega
  | false => exact ⟨h.linked, h.submissions, h.completions⟩

theorem complete_fst (se : SocketEvent) : se.complete.1 = se.inEngine := by
  unfold SocketEvent.complete
  cases se.inEngine <;> rfl

/-- An entry of the array, whatever it says. -/
theorem EventInv.handle (h : EventInv se l) (events : PollEvents) :
    EventInv (beginIf (socketEventHandle se events)) (l.complete (socketEventHandle se events).1) := by
  have hone : ∀ e : SocketEvent, e.arg = se.arg → e.inEngine = se.inEngine → e.begun = se.begun →
      EventInv (beginIf e.complete) (l.complete e.complete.1) := fun e h1 h2 h3 => (h.congr h1 h2 h3).complete
  unfold socketEventHandle
  cases events <;> dsimp only <;> split <;> exact hone _ rfl rfl rfl

theorem EventInv.unlink (h : EventInv se l) {n : ℕ} (hbegun : se.begun = n + 1) :
    EventInv (seUnlinkCe { se with begun := n }) { l with unlinked := l.unlinked + 1 } ∧
      l.submissions = l.unlinked + 1 := by
  have hlinked := h.linked
  have hle := Bool.toNat_le se.arg.isSome
  have hin : se.inEngine.toNat = 0 ∧ n = 0 ∧ se.arg.isSome.toNat = 1 := by omega
  have hsubmissions := h.submissions
  have hcompletions := h.completions
  refine ⟨⟨?_, ?_, ?_⟩, by omega⟩
  · show se.inEngine.toNat + n = 0
    omega
  · show l.submissions = l.unlinked + 1 + 0
    omega
  · show l.completions = l.unlinked + 1 + n
    omega

/-- **`SeLinkCe` and `sockEventAdd` (proved).** -/
theorem EventInv.link (h : EventInv se l) {type : SocketEventType} {cbArg : EventId}
    (hlink : seLinkCe se type cbArg = some se') :
    EventInv { se' with inEngine := true } { l with submissions := l.submissions + 1 } ∧
      EventInv (seUnlinkCe { se' with inEngine := false }) l := by
  unfold seLinkCe at hlink
  split at hlink <;> cases hlink
  next harg =>
    have hlinked := h.linked
    have hsubmissions := h.submissions
    rw [harg, Option.isSome_none, Bool.toNat_false] at hlinked hsubmissions
    refine ⟨⟨?_, ?_, h.completions⟩, ⟨?_, ?_, h.completions⟩⟩
    · show 1 + se.begun = 1
      omega
    · show l.submissions + 1 = l.unlinked + 1
      omega
    · show 0 + se.begun = 0
      omega
    · show l.submissions = l.unlinked + 0
      omega

/-- **The flag (proved).** -/
theorem EventInv.inEngine (h : EventInv se l) :
    se.inEngine = true ↔ se.arg.isSome = true ∧ l.completions < l.submissions := by
  have hlinked := h.linked
  have hsubmissions := h.submissions
  have hcompletions := h.completions
  cases hin : se.inEngine with
  | true =>
    cases harg : se.arg.isSome with
    | true =>
      rw [hin, harg, Bool.toNat_true] at hlinked
      rw [harg, Bool.toNat_true] at hsubmissions
      exact iff_of_true rfl ⟨rfl, by omega⟩
    | false =>
      rw [hin, harg, Bool.toNat_true, Bool.toNat_false] at hlinked
      omega
  | false =>
    refine iff_of_false (fun hnot => by cases hnot) ?_
    rintro ⟨harg, hlt⟩
    rw [hin, harg, Bool.toNat_true, Bool.toNat_false] at hlinked
    rw [harg, Bool.toNat_true] at hsubmissions
    omega

end Events

/-! ### Every run -/

/-- **The invariant of a `SOCK`:** each event is counted, and a thread has the number of the last submission it has
unlinked. -/
structure EngineInv (s : EngineSOCK) : Prop where
  event : ∀ k, EventInv (s.sock.event.get k) (s.log.get k)
  numbers : (s.captured ++ s.calls).Nodup
  bounded : ∀ k n, (k, n) ∈ s.captured ++ s.calls → n ≤ (s.log.get k).unlinked
  spurious : s.spurious = false

section Runs

variable {s t : EngineSOCK}

/-- A step that changes one event. -/
theorem EngineInv.set (h : EngineInv s) (k : ConnEventClass) (sock : SOCK) {se : SocketEvent} {l : EventLog}
    (hsock : sock.event = s.sock.event.set k se) (hse : EventInv se l)
    (hunlinked : (s.log.get k).unlinked ≤ l.unlinked) :
    EngineInv { s with sock := sock, log := s.log.set k l } := by
  refine ⟨fun k' => ?_, h.numbers, fun k' n hn => ?_, h.spurious⟩
  · show EventInv (sock.event.get k') ((s.log.set k l).get k')
    rw [hsock]
    by_cases hk : k' = k
    · rw [hk, Slots.get_set_self, Slots.get_set_self]
      exact hse
    · rw [Slots.get_set_of_ne _ hk, Slots.get_set_of_ne _ hk]
      exact h.event k'
  · show n ≤ ((s.log.set k l).get k').unlinked
    have hle := h.bounded k' n hn
    by_cases hk : k' = k
    · rw [hk, Slots.get_set_self]
      rw [hk] at hle
      exact Nat.le_trans hle hunlinked
    · rw [Slots.get_set_of_ne _ hk]
      exact hle

theorem Slots.set_get {β : Type} (s : Slots β) (k : ConnEventClass) : s.set k (s.get k) = s := by
  cases k <;> rfl

/-- **`SocketEventWaitEx` (proved).** -/
theorem EngineInv.submit (h : EngineInv s) (type : SocketEventType) (cbArg : EventId) (epollErr : Errno)
    (hs : engineStep s (.submit type cbArg epollErr) = some t) : EngineInv t := by
  simp only [engineStep, socketEventWaitEx] at hs
  cases hslot : socketEventSlot (sockEventTranslate type) with
  | none =>
    simp only [hslot] at hs
    cases hs
    exact h
  | some k =>
    simp only [hslot] at hs
    by_cases hnumber : s.sock.number = none
    · simp only [hnumber, if_true] at hs
      cases hs
      exact h
    simp only [hnumber, if_false] at hs
    cases hlink : seLinkCe (s.sock.event.get k) (sockEventTranslate type) cbArg with
    | none =>
      simp only [hlink] at hs
      cases hs
      exact h
    | some se =>
      obtain ⟨hin, hout⟩ := (h.event k).link hlink
      by_cases herr : epollErr = 0
      · simp only [hlink, sockEventAdd, herr, ne_eq, not_true_eq_false, if_false] at hs
        cases hs
        exact h.set k _ rfl hin (Nat.le_refl _)
      · simp only [hlink, sockEventAdd, ne_eq, herr, not_false_eq_true, if_true] at hs
        have hset := h.set k { s.sock with
          event := s.sock.event.set k (seUnlinkCe { se with inEngine := false }) } rfl hout (Nat.le_refl _)
        rw [Slots.set_get] at hset
        split at hs
        next heq =>
          cases heq
          exact absurd rfl herr
        next heq _ =>
          cases heq
          cases hs
          exact hset

/-- **Every step (proved).** -/
theorem engineStep_inv {a : EngineAction} (h : EngineInv s) (hs : engineStep s a = some t) : EngineInv t := by
  cases a with
  | submit type cbArg epollErr => exact h.submit type cbArg epollErr hs
  | ready k events =>
    cases hs
    unfold pollReady
    split
    next hin =>
      rw [hin, Bool.true_and]
      exact h.set k _ rfl ((h.event k).handle events) (Nat.le_refl _)
    next hout =>
      rw [Bool.eq_false_iff.mpr hout, Bool.false_and]
      exact h.set k _ (Slots.set_get _ k).symm (h.event k) (Nat.le_refl _)
  | expire k =>
    cases hs
    have hse : EventInv { s.sock.event.get k with error := Errno.etimedout } (s.log.get k) :=
      (h.event k).congr rfl rfl rfl
    have hcomplete := hse.complete
    rw [complete_fst] at hcomplete ⊢
    exact h.set k _ rfl hcomplete (Nat.le_refl _)
  | kill k =>
    cases hs
    have hse : EventInv { s.sock.event.get k with error := Errno.ecanceled } (s.log.get k) :=
      (h.event k).congr rfl rfl rfl
    exact h.set k _ rfl hse.complete (Nat.le_refl _)
  | handle k =>
    simp only [engineStep] at hs
    split at hs
    next hpos =>
      obtain ⟨n, hn⟩ := Nat.exists_eq_succ_of_ne_zero (Nat.ne_of_gt hpos)
      obtain ⟨hunlink, hnumber⟩ := (h.event k).unlink hn
      have hlinked := (h.event k).linked
      obtain ⟨cbArg, harg⟩ : ∃ cbArg, (s.sock.event.get k).arg = some cbArg := by
        cases harg : (s.sock.event.get k).arg with
        | some cbArg => exact ⟨cbArg, rfl⟩
        | none =>
          rw [harg, Option.isSome_none, Bool.toNat_false] at hlinked
          omega
      have hhandle : handleSocketEvent s.sock k =
          some (cbArg, (s.sock.event.get k).type, (s.sock.event.get k).error,
            { s.sock with event := s.sock.event.set k (seUnlinkCe { s.sock.event.get k with begun := n }) }) := by
        simp only [handleSocketEvent, hn, harg]
      rw [hhandle] at hs
      cases hs
      have hset := h.set k { s.sock with
        event := s.sock.event.set k (seUnlinkCe { s.sock.event.get k with begun := n }) } rfl hunlink (Nat.le_succ _)
      refine ⟨hset.event, List.nodup_cons.mpr ⟨fun hmem => ?_, h.numbers⟩, fun k' m hm => ?_, h.spurious⟩
      · -- the number of this submission is new
        have hle := h.bounded k _ hmem
        omega
      · rcases List.mem_cons.mp hm with heq | hm
        · cases heq
          show (s.log.get k).submissions ≤ ((s.log.set k _).get k).unlinked
          exact Nat.le_of_eq (by simp [hnumber])
        · exact hset.bounded k' m hm
    · cases hs
  | call k n =>
    simp only [engineStep] at hs
    split at hs <;> cases hs
    next hn =>
      have hperm : (s.captured.erase (k, n) ++ (k, n) :: s.calls).Perm (s.captured ++ s.calls) := by
        refine List.perm_middle.trans ?_
        rw [← List.cons_append]
        exact List.Perm.append_right _ (List.perm_cons_erase hn).symm
      exact ⟨h.event, hperm.nodup_iff.mpr h.numbers, fun k' m hm => h.bounded k' m (hperm.mem_iff.mp hm), h.spurious⟩
  | number n =>
    cases hs
    exact ⟨h.event, h.numbers, h.bounded, h.spurious⟩

theorem engineInv_new : EngineInv {} where
  event := fun k => by cases k <;> exact ⟨rfl, rfl, rfl⟩
  numbers := List.nodup_nil
  bounded := fun k n h => by cases h
  spurious := rfl

/-- **What the invariant gives (proved).** -/
theorem EngineInv.atMostOnce (h : EngineInv s) : OneCallback s where
  once := (List.nodup_append.mp h.numbers).2.1
  submitted := fun k n hn => by
    have hle := h.bounded k n (List.mem_append_right _ hn)
    have hsubmissions := (h.event k).submissions
    refine ⟨by omega, fun harg => ?_⟩
    rw [harg, Bool.toNat_true] at hsubmissions
    omega
  spurious := h.spurious
  inEngine := fun k => (h.event k).inEngine

end Runs

/-- **One callback for each submission (proved),** for the events of a `SOCK` and for a listener: whoever completes
an event, each call that returned 0 is called back at most once, and not while the event is linked; a thread that
handles an event finds it linked. -/
theorem oneCallback :
    (∀ s : EngineSOCK, Reachable (enabled engineStep) {} s → OneCallback s) ∧
      ∀ s : Listening, Reachable (enabled listeningStep) Listening.new s →
        s.calls.Nodup ∧ (∀ n ∈ s.calls, n ≤ s.submissions ∧ (s.linked = true → n < s.submissions)) ∧
          (0 < s.sock.begun + s.sock.spinning → s.linked = true) := by
  constructor
  · intro s hs
    exact (hs.invariant engineInv_new fun _ _ _ hinv _ hstep => engineStep_inv hinv hstep).atMostOnce
  · intro s hs
    have hinv := reachable_listeningInv hs
    exact ⟨(List.nodup_append.mp hinv.number.numbers).2.1,
      fun n hn => hinv.number.bounded n (List.mem_append_right _ hn), hinv.begun_linked⟩

/-- An event is killed while a stale entry of it is in the array, and submitted again; and a listener is paused, goes
back and is killed. -/
theorem oneCallback_killed :
    (∃ s : EngineSOCK, runFrom engineStep {} [.number (some 3), .submit .readable 7 0, .kill .receive,
      .ready .receive .ready, .expire .receive, .handle .receive, .call .receive 1, .submit .readable 8 0] = some s ∧
        s.calls = [(.receive, 1)] ∧ OneCallback s) ∧
    ∃ s : Listening, runFrom listeningStep Listening.new [.submit ⟨1, true, true, 0⟩, .connection, .suspend, .epollWait,
      .poll ⟨true, true, 2, 2, 0⟩, .acceptDone, .handle 2 0, .resume, .spin 1 0, .finish, .kill true, .epollWait,
      .poll ⟨false, true, 1, 1, 0⟩, .handle 1 0, .notify 1, .look 1, .release 1, .call 1] = some s ∧
        s.calls = [1] ∧ s.calls.Nodup := by
  have hevent : ∃ s : EngineSOCK, runFrom engineStep {} [.number (some 3), .submit .readable 7 0, .kill .receive,
      .ready .receive .ready, .expire .receive, .handle .receive, .call .receive 1, .submit .readable 8 0] = some s ∧
        s.calls = [(.receive, 1)] := ⟨_, rfl, rfl⟩
  have hlistener : ∃ s : Listening, runFrom listeningStep Listening.new [.submit ⟨1, true, true, 0⟩, .connection,
      .suspend, .epollWait, .poll ⟨true, true, 2, 2, 0⟩, .acceptDone, .handle 2 0, .resume, .spin 1 0, .finish,
      .kill true, .epollWait, .poll ⟨false, true, 1, 1, 0⟩, .handle 1 0, .notify 1, .look 1, .release 1,
      .call 1] = some s ∧ s.calls = [1] := ⟨_, rfl, rfl⟩
  obtain ⟨e, he, hcalls⟩ := hevent
  obtain ⟨s, hs, hcalled⟩ := hlistener
  exact ⟨⟨e, he, hcalls, oneCallback.1 e (reachable_of_runFrom he)⟩,
    s, hs, hcalled, (oneCallback.2 s (reachable_of_runFrom hs)).1⟩

end Connio
