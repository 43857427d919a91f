import Connio.Lib.Inevitable
import Connio.PortListener

/-!
# A listener on the completion port that is killed

`sockEventKill` marks the listener and cancels its `AcceptEx`, and the packet of this ends it (`sockwin.c`): a thread unlinks
it, waits for the accept callbacks, frees the listener and calls back (`sockcommon.c`).

* `EndStep` — what comes without a client;
* `KilledInv`, `killedInv_step` — **PROVED**: what is known of a listener that is killed while no thread spins;
* `reachable_leaves` — **PROVED**: it is unlinked, freed and called back without a client, whatever comes first;
* `spinning_waits` — **PROVED**: one that is killed while a thread spins waits for a client;
* `kill_abandons` — **PROVED**: one that is killed while it waits for a connection leaves its socket behind.
-/

namespace Connio.Port

open Connio.Lib

/-! ### What comes without a client -/

/-- **No thread spins when the listener is killed,** in an orderly step. -/
def KilledAwake (s : PortListener) (a : ListenAction) : Prop :=
  Orderly s a ∧ (a = .kill → s.sock.spinning = 0)

instance (s : PortListener) (a : ListenAction) : Decidable (KilledAwake s a) :=
  inferInstanceAs (Decidable (Orderly s a ∧ (a = .kill → s.sock.spinning = 0)))

/-- What comes without a client: a thread that has been begun, spins, waits or tells the owner, the end of an accept callback,
and the packet of a cancelled operation. -/
def ListenAction.Comes (s : PortListener) : ListenAction → Prop
  | packet _ => s.cancelled = true
  | handle _ _ | spin _ _ | notify _ | call | release | acceptDone => True
  | _ => False

/-- A step that comes without a client. -/
def EndStep (s : PortListener) (a : ListenAction) (s' : PortListener) : Prop :=
  Orderly s a ∧ a.Comes s ∧ listenStep s a = some s'

/-- **What is known of a listener that has been killed,** while no thread spun. -/
def KilledInv (s : PortListener) : Prop :=
  s.linked = true → s.sock.flags.killed = true →
    s.sock.flags.suspended = false ∧ s.sock.spinning = 0 ∧ (s.accepting = true → s.cancelled = true)

section Killed

variable {s s' : PortListener} {answer : AcceptAnswer}

/-- A listener that has not been killed. -/
theorem killedInv_of_not (h : s.sock.flags.killed = false) : KilledInv s := fun _ hkilled =>
  absurd (h.symm.trans hkilled) (by decide)

theorem requeue_flags : (s.requeue answer).sock.flags = s.sock.unpause.flags := by
  have hflags : ({ s with sock := s.sock.unpause }.acceptNext answer).sock.flags = s.sock.unpause.flags := acceptNext_flags
  unfold PortListener.requeue
  dsimp only
  split <;> exact hflags

theorem spin_killed (count : ℕ) : (s.spin count answer).sock.flags.killed = s.sock.flags.killed := by
  have hrequeue : (s.requeue answer).sock.flags.killed = s.sock.flags.killed := by
    rw [requeue_flags]
    rfl
  unfold PortListener.spin
  dsimp only
  split
  · exact hrequeue
  split
  · rfl
  split
  · split
    · rfl
    · exact hrequeue
  · rfl

theorem goOn_killed (a : PacketAnswers) : (s.goOn a).sock.flags.killed = s.sock.flags.killed := by
  unfold PortListener.goOn
  split
  · show (listenerStartThrottling s.sock a.count).2.flags.killed = _
    rw [listenerStartThrottling_eq]
    split <;> rfl
  split
  · rw [acceptNext_flags]
  · show (s.acceptNext a.accept).sock.flags.killed = _
    rw [acceptNext_flags]

/-- The packet of a listener that has been killed. -/
theorem packet_of_killed (h : ListenInv s) (hk : KilledInv s) (haccepting : s.accepting = true)
    (hkilled : s.sock.flags.killed = true) (a : PacketAnswers) :
    s.packet a = { s with
      sock := { s.sock with begun := s.sock.begun + 1 }
      active := false, accepting := false, cancelled := false
      abandoned := s.abandoned ++ s.acceptSocket.toList } := by
  obtain ⟨_, _, hlinked, hactive, hpaused⟩ := h.heldOfPacket haccepting
  obtain ⟨hsuspended, _, _⟩ := hk hlinked hkilled
  have hflags : s.sock.flags = { killed := true } := by
    have hin := h.inEngine
    generalize s.sock.flags = flags at hkilled hpaused hsuspended hin ⊢
    obtain ⟨inEngine, killed, paused, suspended⟩ := flags
    cases hkilled
    cases hpaused
    cases hsuspended
    cases hin
    rfl
  unfold PortListener.packet
  dsimp only
  rw [if_pos hactive, if_neg fun hok => hok.2 hflags]
  rfl

/-- The thread of a listener that has been killed. -/
theorem handle_of_killed (hkilled : s.sock.flags.killed = true) (count : ℕ) :
    (s.handle count answer).linked = false := by
  have hnot : ¬listenerThrottling s.sock = true := by
    unfold listenerThrottling
    rw [hkilled]
    nofun
  unfold PortListener.handle
  rw [if_neg hnot]

theorem packet_killed (a : PacketAnswers) : (s.packet a).sock.flags.killed = s.sock.flags.killed := by
  unfold PortListener.packet
  dsimp only
  split
  · split
    · rw [goOn_killed]
      cases a.acceptEvent <;> rfl
    · rfl
  · rfl

theorem handle_killed (count : ℕ) : (s.handle count answer).sock.flags.killed = s.sock.flags.killed := by
  unfold PortListener.handle
  split
  · exact spin_killed count
  · rfl

theorem submit_flags (a : SubmitAnswers) : (s.submit a).sock.flags = s.sock.flags := by
  have hflags : (s.acceptNext a.accept).sock.flags = s.sock.flags := acceptNext_flags
  unfold PortListener.submit
  split
  · rfl
  split
  · rfl
  split
  · rfl
  split <;> exact hflags

/-- A listener that is linked is not suspended once it has been resumed. -/
theorem resume_suspended (hlistener : s.sock.listener.isSome = true) :
    (socketListenerResume s.sock).2.flags.suspended = false := by
  unfold socketListenerResume
  split
  · rfl
  next hnot => exact Bool.eq_false_iff.mpr fun hsuspended => hnot ⟨hlistener, hsuspended⟩

/-- What a kill leaves alone. -/
theorem kill_frame : s.kill.linked = s.linked ∧ s.kill.accepting = s.accepting ∧
    s.kill.acceptSocket = s.acceptSocket ∧ s.kill.abandoned = s.abandoned ∧ s.kill.sock.begun = s.sock.begun ∧
      s.kill.sock.spinning = s.sock.spinning := by
  have hsame : (socketListenerResume s.sock).2.begun = s.sock.begun ∧
      (socketListenerResume s.sock).2.spinning = s.sock.spinning := by
    unfold socketListenerResume
    split <;> exact ⟨rfl, rfl⟩
  unfold PortListener.kill
  dsimp only
  split <;> exact ⟨rfl, rfl, rfl, rfl, hsame⟩

theorem kill_of_active (hactive : s.active = true) :
    s.kill.sock.flags.killed = true ∧ s.kill.cancelled = s.accepting := by
  unfold PortListener.kill
  dsimp only
  rw [if_pos hactive]
  exact ⟨rfl, rfl⟩

/-- A listener that is killed while no thread spins. -/
theorem kill_killedInv (h : ListenInv s) (hspinning : s.sock.spinning = 0) : KilledInv s.kill := by
  obtain ⟨hlinked', haccepting, _, _, _, hspinning'⟩ := kill_frame (s := s)
  intro hlinked hkilled
  rw [hlinked'] at hlinked
  have hsuspended := resume_suspended (h.listener_spec hlinked).1
  have hsuspended' : s.kill.sock.flags.suspended = false := by
    unfold PortListener.kill
    dsimp only
    split <;> exact hsuspended
  refine ⟨hsuspended', hspinning'.trans hspinning, fun hacc => ?_⟩
  rw [haccepting] at hacc
  rw [(kill_of_active (h.active (.inl hacc))).2]
  exact hacc

/-- A step of a listener that is not killed in its spin. -/
theorem killedInv_step {a : ListenAction} (h : ListenInv s) (hk : KilledInv s) (hok : KilledAwake s a)
    (hstep : listenStep s a = some s') : KilledInv s' := by
  cases a with
  | submit a =>
    obtain ⟨_, heq⟩ := Option.ite_none_right_eq_some.mp hstep
    cases heq
    cases hkilled : s.sock.flags.killed with
    | false => exact killedInv_of_not (by rw [submit_flags, hkilled])
    | true =>
      unfold PortListener.submit
      rw [if_pos (.inl hkilled)]
      exact hk
  | packet a =>
    obtain ⟨haccepting, heq⟩ := Option.ite_none_right_eq_some.mp hstep
    cases heq
    cases hkilled : s.sock.flags.killed with
    | false => exact killedInv_of_not ((packet_killed a).trans hkilled)
    | true =>
      rw [packet_of_killed h hk haccepting hkilled a]
      intro hlinked hkilled
      obtain ⟨hsuspended, hspinning, _⟩ := hk hlinked hkilled
      exact ⟨hsuspended, hspinning, nofun⟩
  | handle count answer =>
    obtain ⟨_, heq⟩ := Option.ite_none_right_eq_some.mp hstep
    cases heq
    cases hkilled : s.sock.flags.killed with
    | false => exact killedInv_of_not ((handle_killed count).trans hkilled)
    | true =>
      intro hlinked
      rw [handle_of_killed (by exact hkilled)] at hlinked
      cases hlinked
  | spin count answer =>
    obtain ⟨hspinning, heq⟩ := Option.ite_none_right_eq_some.mp hstep
    cases heq
    cases hkilled : s.sock.flags.killed with
    | false => exact killedInv_of_not ((spin_killed count).trans hkilled)
    | true =>
      have hnone := (hk (h.place (by omega)).1 hkilled).2.1
      omega
  | notify calls | call | release =>
    obtain ⟨_, heq⟩ := Option.ite_none_right_eq_some.mp hstep
    cases heq
    exact hk
  | acceptDone =>
    obtain ⟨l, _, hstep⟩ := Option.bind_eq_some_iff.mp hstep
    obtain ⟨_, heq⟩ := Option.ite_none_right_eq_some.mp hstep
    cases heq
    exact hk
  | suspend =>
    cases hstep
    unfold socketListenerSuspend
    split
    next hsuspends => exact killedInv_of_not hsuspends.2
    next => exact hk
  | resume =>
    cases hstep
    unfold socketListenerResume
    split
    next =>
      intro hlinked hkilled
      exact ⟨rfl, (hk hlinked hkilled).2⟩
    next => exact hk
  | kill =>
    cases hstep
    exact kill_killedInv h (hok.2 rfl)

theorem orderly_pending {a : ListenAction} (h : a.accept? = some .pending) (hrelease : a ≠ .release) : Orderly s a := by
  refine ⟨fun answer hanswer => ?_, fun heq => absurd heq hrelease⟩
  rw [h] at hanswer
  obtain rfl := Option.mem_some_iff.mp hanswer
  exact ⟨nofun, nofun⟩

/-- A step that starts no `AcceptEx` and frees nothing. -/
theorem orderly_other {a : ListenAction} (h : a.accept? = none) (hrelease : a ≠ .release) : Orderly s a := by
  refine ⟨fun answer hanswer => ?_, fun heq => absurd heq hrelease⟩
  rw [h] at hanswer
  cases hanswer

/-- **The listener has gotten out:** it is unlinked, and the thread that has freed it has called back. -/
def PortListener.Ended (s : PortListener) : Prop := s.linked = false ∧ s.sock.waiting = 0

/-- The accept callbacks that the thread waits for. -/
def PortListener.inAccepts (s : PortListener) : ℕ := s.sock.listener.elim 0 AsyncListener.inAccept

/-- What is left to do for a listener that has been killed. -/
def PortListener.endRank (s : PortListener) : ℕ :=
  3 * s.accepting.toNat + 2 * s.sock.begun + s.sock.waiting + 2 * s.testing + s.calling + s.inAccepts

/-- A listener that is unlinked and not freed has a step. -/
theorem ListenInv.comes (h : ListenInv s) (hlinked : s.linked = false) (hwaiting : 0 < s.sock.waiting) :
    ∃ a t, EndStep s a t := by
  by_cases htesting : 0 < s.testing
  · exact ⟨.notify false, _, orderly_other rfl nofun, trivial, if_pos htesting⟩
  by_cases hcalling : 0 < s.calling
  · exact ⟨.call, _, orderly_other rfl nofun, trivial, if_pos hcalling⟩
  have hlistener := h.listener
  rw [hlinked] at hlistener
  change 0 + s.sock.waiting = _ at hlistener
  obtain ⟨l, hl⟩ : ∃ l, s.sock.listener = some l := by
    refine Option.isSome_iff_exists.mp ?_
    by_contra hnone
    rw [Bool.eq_false_iff.mpr hnone] at hlistener
    change _ = 0 at hlistener
    omega
  by_cases hdone : 0 < l.inAccept
  · refine ⟨.acceptDone, { s with sock := { s.sock with listener := some { l with inAccept := l.inAccept - 1 } } },
      orderly_other rfl nofun, trivial, ?_⟩
    simp only [listenStep, hl, Option.bind_some, if_pos hdone]
  · have hfree : s.sock.listener.all (fun l => decide (l.inAccept < 1)) = true := by
      rw [hl]
      exact decide_eq_true (by omega)
    exact ⟨.release, _, ⟨nofun, fun _ => ⟨by omega, by omega⟩⟩, trivial, if_pos ⟨hwaiting, hfree⟩⟩

/-- A listener that is killed and linked has a step. -/
theorem KilledInv.comes (hk : KilledInv s) (h : ListenInv s) (hkilled : s.sock.flags.killed = true)
    (hlinked : s.linked = true) : ∃ a t, EndStep s a t := by
  obtain ⟨_, hspinning, hcancelled⟩ := hk hlinked hkilled
  have htoken := h.token
  rw [hlinked, hspinning] at htoken
  change _ + 0 = 1 at htoken
  cases hacc : s.accepting with
  | true => exact ⟨.packet ⟨false, false, 0, 0, .pending⟩, _, orderly_pending rfl nofun, hcancelled hacc, if_pos hacc⟩
  | false =>
    rw [hacc] at htoken
    change 0 + _ + 0 = 1 at htoken
    exact ⟨.handle 0 .pending, _, orderly_pending rfl nofun, trivial, if_pos (by omega)⟩

/-- **A step that comes brings a killed listener closer to its end (proved).** -/
theorem endStep_rank (h : ListenInv s) (hk : KilledInv s) (hkilled : s.sock.flags.killed = true) {a : ListenAction}
    (hstep : EndStep s a s') : s'.sock.flags.killed = true ∧ s'.endRank < s.endRank := by
  obtain ⟨_, hcomes, hstep⟩ := hstep
  cases a with
  | packet a =>
    obtain ⟨haccepting, heq⟩ := Option.ite_none_right_eq_some.mp hstep
    cases heq
    rw [packet_of_killed h hk haccepting hkilled a]
    refine ⟨hkilled, ?_⟩
    unfold PortListener.endRank
    rw [haccepting]
    show 3 * 0 + 2 * (s.sock.begun + 1) + s.sock.waiting + 2 * s.testing + s.calling + s.inAccepts <
      3 * 1 + 2 * s.sock.begun + s.sock.waiting + 2 * s.testing + s.calling + s.inAccepts
    omega
  | handle count answer =>
    obtain ⟨hbegun, heq⟩ := Option.ite_none_right_eq_some.mp hstep
    cases heq
    refine ⟨(handle_killed count).trans hkilled, ?_⟩
    have hnot : ¬listenerThrottling { s.sock with begun := s.sock.begun - 1 } = true := by
      unfold listenerThrottling
      rw [show s.sock.flags.killed = true from hkilled]
      nofun
    unfold PortListener.handle
    rw [if_neg hnot]
    show 3 * s.accepting.toNat + 2 * (s.sock.begun - 1) + (s.sock.waiting + 1) + 2 * s.testing + s.calling + s.inAccepts <
      3 * s.accepting.toNat + 2 * s.sock.begun + s.sock.waiting + 2 * s.testing + s.calling + s.inAccepts
    omega
  | spin count answer =>
    obtain ⟨hpos, _⟩ := Option.ite_none_right_eq_some.mp hstep
    have hlinked := (h.place (by omega)).1
    have hnone := (hk hlinked hkilled).2.1
    omega
  | notify calls =>
    obtain ⟨hpos, heq⟩ := Option.ite_none_right_eq_some.mp hstep
    cases heq
    refine ⟨hkilled, ?_⟩
    show 3 * s.accepting.toNat + 2 * s.sock.begun + s.sock.waiting + 2 * (s.testing - 1) +
      (if calls then s.calling + 1 else s.calling) + s.inAccepts <
      3 * s.accepting.toNat + 2 * s.sock.begun + s.sock.waiting + 2 * s.testing + s.calling + s.inAccepts
    split <;> omega
  | call =>
    obtain ⟨hpos, heq⟩ := Option.ite_none_right_eq_some.mp hstep
    cases heq
    refine ⟨hkilled, ?_⟩
    show 3 * s.accepting.toNat + 2 * s.sock.begun + s.sock.waiting + 2 * s.testing + (s.calling - 1) + s.inAccepts <
      3 * s.accepting.toNat + 2 * s.sock.begun + s.sock.waiting + 2 * s.testing + s.calling + s.inAccepts
    omega
  | release =>
    obtain ⟨⟨hwaiting, _⟩, heq⟩ := Option.ite_none_right_eq_some.mp hstep
    cases heq
    refine ⟨hkilled, ?_⟩
    show 3 * s.accepting.toNat + 2 * s.sock.begun + (s.sock.waiting - 1) + 2 * s.testing + s.calling + 0 <
      3 * s.accepting.toNat + 2 * s.sock.begun + s.sock.waiting + 2 * s.testing + s.calling + s.inAccepts
    omega
  | acceptDone =>
    obtain ⟨l, hl, hstep⟩ := Option.bind_eq_some_iff.mp hstep
    obtain ⟨hpos, heq⟩ := Option.ite_none_right_eq_some.mp hstep
    cases heq
    refine ⟨hkilled, ?_⟩
    have hin : s.inAccepts = l.inAccept := by rw [PortListener.inAccepts, hl]; rfl
    show 3 * s.accepting.toNat + 2 * s.sock.begun + s.sock.waiting + 2 * s.testing + s.calling + (l.inAccept - 1) <
      3 * s.accepting.toNat + 2 * s.sock.begun + s.sock.waiting + 2 * s.testing + s.calling + s.inAccepts
    omega
  | submit | suspend | resume | kill => exact hcomes.elim

/-- **A listener that is killed gets out without a client (proved),** when no thread spins as it is killed: whatever comes
first, it is unlinked, freed and called back. -/
theorem reachable_leaves (h : ReachableVia (enabled listenStep) KilledAwake .new s)
    (hkilled : s.sock.flags.killed = true) : Inevitably EndStep PortListener.Ended s := by
  have hinv : ListenInv s ∧ KilledInv s := by
    refine h.invariant (P := fun s => ListenInv s ∧ KilledInv s) ⟨listenInv_new, nofun⟩ fun _ _ _ hs hok hstep => ?_
    exact ⟨listenStep_inv hs.1 hok.1 hstep, killedInv_step hs.1 hs.2 hok hstep⟩
  have hstart : (ListenInv s ∧ KilledInv s) ∧ s.sock.flags.killed = true := ⟨hinv, hkilled⟩
  refine Inevitably.of_rank (I := fun t => (ListenInv t ∧ KilledInv t) ∧ t.sock.flags.killed = true)
    PortListener.endRank (fun t ht => ?_) hstart
  obtain ⟨⟨ht, hk⟩, hkilled⟩ := ht
  have hsteps : ∀ a t', EndStep t a t' →
      ((ListenInv t' ∧ KilledInv t') ∧ t'.sock.flags.killed = true) ∧ t'.endRank < t.endRank := by
    intro a t' hstep
    obtain ⟨hkilled', hlower⟩ := endStep_rank ht hk hkilled hstep
    obtain ⟨horderly, hcomes, hstep⟩ := hstep
    have hawake : a = .kill → t.sock.spinning = 0 := by
      rintro rfl
      exact hcomes.elim
    exact ⟨⟨⟨listenStep_inv ht horderly hstep, killedInv_step ht hk ⟨horderly, hawake⟩ hstep⟩, hkilled'⟩, hlower⟩
  cases hlinked : t.linked with
  | true => exact .inr ⟨hk.comes ht hkilled hlinked, hsteps⟩
  | false =>
    by_cases hwaiting : 0 < t.sock.waiting
    · exact .inr ⟨ht.comes hlinked hwaiting, hsteps⟩
    · exact .inl ⟨hlinked, by omega⟩

/-- A listener that is killed while it waits for its first connection. -/
theorem reachable_leaves_killed : ∃ s : PortListener, s.linked = true ∧ s.accepting = true ∧
    Inevitably EndStep PortListener.Ended s := by
  obtain ⟨s, hrun, hlinked, haccepting, hkilled⟩ : ∃ s, runFrom (guarded KilledAwake listenStep) .new
      [.submit ⟨8, true, true, 0, .pending⟩, .kill] = some s ∧ s.linked = true ∧ s.accepting = true ∧
      s.sock.flags.killed = true := ⟨_, rfl, rfl, rfl, rfl⟩
  exact ⟨s, hlinked, haccepting, reachable_leaves (reachableVia_of_runFrom hrun) hkilled⟩

/-- A listener with an `AcceptEx` that nobody has cancelled, and without a thread that would end it. -/
structure Waits (s : PortListener) : Prop where
  linked : s.linked = true
  begun : s.sock.begun = 0
  spinning : s.sock.spinning = 0
  cancelled : s.cancelled = false

/-- It waits for a client. -/
theorem Waits.step {a : ListenAction} (h : Waits s) (hstep : EndStep s a s') : Waits s' := by
  obtain ⟨_, hcomes, hstep⟩ := hstep
  cases a with
  | packet a => exact absurd (h.cancelled.symm.trans hcomes) (by decide)
  | handle count answer =>
    obtain ⟨hpos, _⟩ := Option.ite_none_right_eq_some.mp hstep
    exact absurd (h.begun ▸ hpos) (Nat.lt_irrefl 0)
  | spin count answer =>
    obtain ⟨hpos, _⟩ := Option.ite_none_right_eq_some.mp hstep
    exact absurd (h.spinning ▸ hpos) (Nat.lt_irrefl 0)
  | notify calls | call | release =>
    obtain ⟨_, heq⟩ := Option.ite_none_right_eq_some.mp hstep
    cases heq
    exact ⟨h.linked, h.begun, h.spinning, h.cancelled⟩
  | acceptDone =>
    obtain ⟨l, _, hstep⟩ := Option.bind_eq_some_iff.mp hstep
    obtain ⟨_, heq⟩ := Option.ite_none_right_eq_some.mp hstep
    cases heq
    exact ⟨h.linked, h.begun, h.spinning, h.cancelled⟩
  | submit | suspend | resume | kill => exact hcomes.elim

/-- **One that is killed while a thread spins waits for a client (proved):** the thread starts an `AcceptEx` that nobody
cancels. -/
theorem spinning_waits (h : ReachableVia (enabled listenStep) Orderly .new s) (hspinning : 0 < s.sock.spinning)
    (count : ℕ) : ∃ t, runFrom listenStep s [.kill, .spin count .pending] = some t ∧
      t.sock.flags.killed = true ∧ ∀ u, Reachable EndStep t u → u.linked = true := by
  have hinv : ListenInv s := h.invariant listenInv_new fun _ _ _ hs horderly hstep => listenStep_inv hs horderly hstep
  obtain ⟨hlinked, hone⟩ := hinv.place (by omega)
  have hkilled := (kill_of_active (hinv.active (.inr ⟨hlinked, hinv.spinning hspinning⟩))).1
  obtain ⟨hlinked', _, _, _, hbegun', hspinning'⟩ := kill_frame (s := s)
  have hspin : listenStep s.kill (.spin count .pending) =
      some ({ s.kill with sock := { s.kill.sock with spinning := s.kill.sock.spinning - 1 } }.requeue .pending) := by
    have hstep : listenStep s.kill (.spin count .pending) = some _ := if_pos (by omega)
    rw [hstep]
    unfold PortListener.spin
    dsimp only
    rw [if_pos hkilled]
  have hrun : runFrom listenStep s [.kill, .spin count .pending] =
      some ({ s.kill with sock := { s.kill.sock with spinning := s.kill.sock.spinning - 1 } }.requeue .pending) := by
    show (listenStep s.kill (.spin count .pending)).bind some = some _
    rw [hspin]
    rfl
  have hwaits : Waits ({ s.kill with sock := { s.kill.sock with spinning := s.kill.sock.spinning - 1 } }.requeue .pending) := by
    refine ⟨hlinked'.trans hlinked, ?_, ?_, rfl⟩
    · show s.kill.sock.begun = 0
      omega
    · show s.kill.sock.spinning - 1 = 0
      omega
  refine ⟨_, hrun, hkilled, fun u hu => ?_⟩
  have hkept : Waits u := hu.invariant hwaits fun _ _ _ hw _ hstep => hw.step hstep
  exact hkept.linked

/-- **A listener that is killed while it waits for a connection leaves its socket behind (proved).** -/
theorem kill_abandons (h : ReachableVia (enabled listenStep) Orderly .new s) (haccepting : s.accepting = true)
    (a : PacketAnswers) : ∃ n t, s.acceptSocket = some n ∧ runFrom listenStep s [.kill, .packet a] = some t ∧
      t.abandoned = s.abandoned ++ [n] ∧ t.accepting = false := by
  have hinv : ListenInv s := h.invariant listenInv_new fun _ _ _ hs hfails hstep => listenStep_inv hs hfails hstep
  obtain ⟨_, hspinning, _, hactive, _⟩ := hinv.heldOfPacket haccepting
  obtain ⟨n, hn⟩ := Option.isSome_iff_exists.mp (hinv.socket haccepting)
  obtain ⟨_, haccepting', hsocket', habandoned', _⟩ := kill_frame (s := s)
  have hpacket := packet_of_killed hinv.kill (kill_killedInv hinv hspinning) (haccepting'.trans haccepting)
    (kill_of_active hactive).1 a
  have hstep : listenStep s.kill (.packet a) = some (s.kill.packet a) := if_pos (haccepting'.trans haccepting)
  have hrun : runFrom listenStep s [.kill, .packet a] = some (s.kill.packet a) := by
    show (listenStep s.kill (.packet a)).bind some = some _
    rw [hstep]
    rfl
  refine ⟨n, _, hn, hrun, ?_, ?_⟩
  · rw [hpacket]
    show s.kill.abandoned ++ s.kill.acceptSocket.toList = _
    rw [habandoned', hsocket', hn]
    rfl
  · rw [hpacket]

end Killed

end Connio.Port
