import Connio.EngineInv
import Connio.Listening

/-!
# Threads that do not start

`AThreadBegin` cannot report that `XplThreadStart` has failed (`threadengine.c`): its caller goes on as if there were a
thread.  `AsyncSystem` and `Listening` count a thread as begun when its work is there for it; here such a thread may
also not come.

* `StartAction`, `startStep` — a system with threads that may not start;
* `AsyncSystem.startFails`, `Listening.startFails` — what is left when a thread does not start;
* `AsyncSystem.Delivered`, `Listening.Delivered` — somebody has each transaction that is complete, each event that has
  left the engine and each socket that has been accepted;
* `reachable_delivered` — **PROVED**: it is so as long as all threads start, and no longer when one does not;
* `delivered_fails` — **PROVED**: a completed event that stays linked, with nobody to handle it.
-/

namespace Connio

open Connio.Lib

/-! ### Threads that may not start -/

/-- A step of a system, or a thread that it has begun does not start. -/
inductive StartAction (α τ : Type) where
  | act (a : α)
  /-- `XplThreadStart` fails -/
  | startFails (t : τ)
  deriving DecidableEq, Repr

/-- All threads start. -/
def StartAction.Starts {α τ : Type} : StartAction α τ → Prop
  | act _ => True
  | startFails _ => False

/-- **One step** of a system in which threads may not start. -/
def startStep {σ α τ : Type} (step : σ → α → Option σ) (startFails : σ → τ → Option σ) (s : σ) :
    StartAction α τ → Option σ
  | .act a => step s a
  | .startFails t => startFails s t

/-- The threads that are begun for a conn. -/
inductive ConnThread where
  /-- `QueueCompleteCallback` -/
  | complete
  /-- `HandleSocketEvent` -/
  | handle (k : ConnEventClass)
  deriving DecidableEq, Repr

def AsyncSystem.startFails (s : AsyncSystem) : ConnThread → Option AsyncSystem
  | .complete => if .starting ∈ s.completions then some { s with completions := s.completions.erase .starting } else none
  | .handle k =>
    match (s.conn.sp.event.get k).begun with
    | n + 1 =>
      some { s with conn := { s.conn with sp := s.conn.sp.setSocketEvent k { s.conn.sp.event.get k with begun := n } } }
    | 0 => none

/-- The threads that are begun for a listener. -/
inductive ListenerThread where
  /-- `HandleSocketEvent` -/
  | handle
  /-- `acceptPickup` -/
  | accept
  deriving DecidableEq, Repr

def Listening.startFails (s : Listening) : ListenerThread → Option Listening
  | .handle =>
    match s.sock.begun with
    | n + 1 => some { s with sock := { s.sock with begun := n } }
    | 0 => none
  | .accept =>
    match s.accepting with
    | n + 1 => some { s with accepting := n }
    | 0 => none

/-! ### Nothing is lost while all threads start -/

/-- **Somebody has what is complete:** a transaction, and an event that has left the engine. -/
structure AsyncSystem.Delivered (s : AsyncSystem) : Prop where
  complete : s.conn.state = .asynchronousEngineComplete → .starting ∈ s.completions
  event : ∀ k, (s.conn.sp.event.get k).arg ≠ none →
    (s.conn.sp.event.get k).inEngine = true ∨ 0 < (s.conn.sp.event.get k).begun

/-- **Somebody has the listener,** and each socket that `inAccept` counts. -/
structure Listening.Delivered (s : Listening) : Prop where
  listener : s.linked = true → 0 < s.sock.token
  accepted : s.sock.listener.elim 0 AsyncListener.inAccept = s.accepting

theorem AsyncInv.delivered {s : AsyncSystem} (h : AsyncInv s) : s.Delivered where
  complete hs := by
    apply List.count_pos_iff.mp
    rw [h.completing, if_pos hs]
    exact Nat.one_pos
  event k hk := by
    have hbegun := (h.socket k).busy hk
    cases hin : (s.conn.sp.event.get k).inEngine with
    | true => exact .inl rfl
    | false =>
      rw [hin] at hbegun
      exact .inr (by rw [hbegun]; decide)

/-- A thread that does not start loses what it was begun for: nobody else has it. -/
theorem AsyncInv.lost {s s' : AsyncSystem} (h : AsyncInv s) {t : ConnThread} (hs : s.startFails t = some s') :
    ¬ s'.Delivered := by
  intro hdelivered
  cases t with
  | complete =>
    simp only [AsyncSystem.startFails] at hs
    split at hs
    next hmem =>
      cases hs
      have hcomplete := h.complete_of_starting hmem
      have hstill := List.count_pos_iff.mpr (hdelivered.complete hcomplete)
      rw [List.count_erase_self, h.completing, if_pos hcomplete] at hstill
      omega
    next => cases hs
  | handle k =>
    simp only [AsyncSystem.startFails] at hs
    split at hs
    next n hn =>
      cases hs
      have hlinked : (s.conn.sp.event.get k).arg ≠ none := by
        intro harg
        have hzero := ((h.socket k).idle harg).2
        omega
      have hbusy := (h.socket k).busy hlinked
      have hout : (s.conn.sp.event.get k).inEngine = false := by
        cases hin : (s.conn.sp.event.get k).inEngine with
        | false => rfl
        | true =>
          rw [hin, if_pos rfl] at hbusy
          omega
      have hone : n = 0 := by
        rw [hout] at hbusy
        simp only [Bool.false_eq_true, if_false] at hbusy
        omega
      have hevent := hdelivered.event k
      simp only [SOCK.setSocketEvent, Slots.get_set_self] at hevent
      rcases hevent hlinked with hin | hpos
      · rw [hout] at hin
        cases hin
      · omega
    next => cases hs

theorem ListeningInv.delivered {s : Listening} (h : ListeningInv s) : s.Delivered where
  listener hl := by
    rw [h.token.token, hl]
    decide
  accepted := h.ledger.accepting.symm

theorem ListeningInv.lost {s s' : Listening} (h : ListeningInv s) {t : ListenerThread}
    (hs : s.startFails t = some s') : ¬ s'.Delivered := by
  intro hdelivered
  cases t with
  | handle =>
    simp only [Listening.startFails] at hs
    split at hs
    next n hn =>
      cases hs
      have hlinked := h.begun_linked (by omega)
      have htoken := h.token.token
      have hstill := hdelivered.listener hlinked
      rw [hlinked] at htoken
      simp only [ListenerSOCK.token, Bool.toNat_true] at htoken hstill
      omega
    next => cases hs
  | accept =>
    simp only [Listening.startFails] at hs
    split at hs
    next n hn =>
      cases hs
      have haccepted := hdelivered.accepted
      rw [← h.ledger.accepting] at haccepted
      simp only at haccepted
      omega
    next => cases hs

/-- In a run in which all threads start, the system makes the steps that it makes without them. -/
theorem reachable_of_starts {σ α τ : Type} {step : σ → α → Option σ} {fails : σ → τ → Option σ} {s s' : σ}
    (h : ReachableVia (enabled (startStep step fails)) (fun _ m => m.Starts) s s') : Reachable (enabled step) s s' := by
  induction h with
  | init => exact .init
  | @next s₁ s₂ m _ hok hs ih =>
    cases m with
    | act a => exact .next ih trivial hs
    | startFails t => cases hok

/-- **Nothing that is complete is lost while all threads start (proved),** and from there on exactly the steps in which
a thread does not start lose something. -/
theorem reachable_delivered {s s' : AsyncSystem} {l : Listening} (hinit : s.Initial)
    (h : ReachableVia (enabled (startStep asyncStep AsyncSystem.startFails)) (fun _ m => m.Starts) s s')
    (hl : ReachableVia (enabled (startStep listeningStep Listening.startFails)) (fun _ m => m.Starts)
      Listening.new l) :
    (s'.Delivered ∧ ∀ m t, startStep asyncStep AsyncSystem.startFails s' m = some t → (t.Delivered ↔ m.Starts)) ∧
      l.Delivered ∧ ∀ m t, startStep listeningStep Listening.startFails l m = some t → (t.Delivered ↔ m.Starts) := by
  have hinv := asyncInv_reachable hinit (reachable_of_starts h)
  have hlinv := reachable_listeningInv (reachable_of_starts hl)
  refine ⟨⟨hinv.delivered, ?_⟩, hlinv.delivered, ?_⟩
  · intro m t hm
    cases m with
    | act a =>
      have hnext : AsyncInv t := (asyncStep_effect hinv hm).1
      exact ⟨fun _ => trivial, fun _ => hnext.delivered⟩
    | startFails u => exact ⟨fun hdelivered => hinv.lost hm hdelivered, fun hstarts => by cases hstarts⟩
  · intro m t hm
    cases m with
    | act a => exact ⟨fun _ => trivial, fun _ => (listeningStep_inv hlinv hm).delivered⟩
    | startFails u => exact ⟨fun hdelivered => hlinv.lost hm hdelivered, fun hstarts => by cases hstarts⟩

/-! ### A thread that does not start -/

/-- A read waits for its socket, and the poll thread finds it ready. -/
def readySteps : List AsyncAction :=
  queueRun 0 { type := .readUntilPattern, source := ⟨0, 1⟩ } ++
  [.submit true 0 ⟨0, 2⟩] ++
  processRun 0 [(.destroying [], .destroy), (.starting, .test),
    (.processing, .process (.ret Errno.ewouldblock .readable)), (.blocked .readable, .test),
    (.submitting .readable, .submit 0)] .inProgress ++
  [.pollReady .receive .ready]

def readyRun : List (StartAction AsyncAction ConnThread) := readySteps.map .act

/-- A listener that accepts a connection. -/
def acceptRun : List (StartAction ListeningAction ListenerThread) :=
  [.act (.submit ⟨0, true, true, 0⟩), .act .connection, .act .epollWait, .act (.poll ⟨true, true, 0, 0, 0⟩)]

/-- What becomes of the event of a read. -/
def AsyncSystem.receiveEvent (s : AsyncSystem) : Option EventId × Bool × ℕ :=
  ((s.conn.sp.event.get .receive).arg, (s.conn.sp.event.get .receive).inEngine, (s.conn.sp.event.get .receive).begun)

theorem readyRun_begins : (runFrom (startStep asyncStep AsyncSystem.startFails) (AsyncSystem.new (some 3))
    readyRun).map AsyncSystem.receiveEvent = some (some 0, false, 1) := by
  decide +kernel

theorem readyRun_lost : (runFrom (startStep asyncStep AsyncSystem.startFails) (AsyncSystem.new (some 3))
    (readyRun ++ [.startFails (.handle .receive)])).map AsyncSystem.receiveEvent = some (some 0, false, 0) := by
  decide +kernel

/-- A read that has become ready, and a connection that has been accepted. -/
theorem reachable_delivered_ready :
    (∃ s : AsyncSystem, s.Delivered ∧ s.receiveEvent = (some 0, false, 1)) ∧
    ∃ s : Listening, s.Delivered ∧ s.accepting = 1 := by
  obtain ⟨s, hrun, hevent⟩ := Option.map_eq_some_iff.mp readyRun_begins
  have hstarts : ∀ m ∈ readyRun, ∀ _ : AsyncSystem, m.Starts := by
    intro m hm _
    obtain ⟨a, _, ha⟩ := List.mem_map.mp hm
    exact ha ▸ trivial
  have haccept : ∃ l, runFrom (startStep listeningStep Listening.startFails) Listening.new acceptRun = some l ∧
      l.accepting = 1 := ⟨_, rfl, rfl⟩
  obtain ⟨l, hlrun, haccepting⟩ := haccept
  have hlstarts : ∀ m ∈ acceptRun, ∀ _ : Listening, m.Starts := by
    intro m hm _
    simp only [acceptRun, List.mem_cons, List.not_mem_nil, or_false] at hm
    rcases hm with hm | hm | hm | hm <;> exact hm ▸ trivial
  have hdelivered := reachable_delivered (AsyncSystem.new_initial (some 3)) (reachableVia_of_forall _ hstarts hrun)
    (reachableVia_of_forall _ hlstarts hlrun)
  exact ⟨⟨s, hdelivered.1.1, hevent⟩, l, hdelivered.2.1, haccepting⟩

/-- **A completed event stays linked (proved):** the thread of its `HandleSocketEvent` does not start. -/
theorem delivered_fails : ¬ ∀ s s' : AsyncSystem, s.Initial →
    Reachable (enabled (startStep asyncStep AsyncSystem.startFails)) s s' → s'.Delivered := by
  intro h
  obtain ⟨s, hrun, hevent⟩ := Option.map_eq_some_iff.mp readyRun_lost
  have hdelivered := (h _ s (AsyncSystem.new_initial (some 3)) (reachable_of_runFrom hrun)).event .receive
  simp only [AsyncSystem.receiveEvent, Prod.mk.injEq] at hevent
  obtain ⟨harg, hin, hbegun⟩ := hevent
  rw [harg, hin, hbegun] at hdelivered
  rcases hdelivered (by simp) with hfalse | hpos
  · cases hfalse
  · omega

end Connio
