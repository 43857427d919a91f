import Connio.Listening

/-!
# How a listener ends

What `killActiveListener` and `asyncListenerRelease` owe to the other threads of a listener (`sockcommon.c`,
`sockunix.c`).

* `Woken`, `Wakes` — a listener that is killed has somebody to take it out of the engine; the steps that see to it;
* `reachable_woken` — **PROVED**: it has, as long as a killed listener goes to epoll only with a connection pending;
* `ListenerKept`, `FreedLast`, `ReadsDone` — a listener is there for all threads that use it, and who frees it;
* `reachable_listenerKept` — **PROVED**: it is, as long as no thread is about to read a listener that it has put back;
* `woken_fails`, `listenerKept_fails` — **PROVED**: the runs in which they are not.
-/

namespace Connio

open Connio.Lib

/-! ### A killed listener gets out of the engine -/

/-- **Somebody takes a killed listener out of the engine:** a thread that has been begun and has not put it back, the
poll thread that has it from epoll, or epoll for the sake of a connection. -/
def Woken (s : Listening) : Prop :=
  s.sock.flags.killed = true → s.linked = true →
    0 < s.sock.begun + s.sock.spinning ∨ s.sock.reported = true ∨ s.sock.armed = true ∧ 0 < s.backlog

/-- The wake-up connection gets to a listener that epoll has, unless another connection is pending; and a listener
that a spinning thread finds killed does not go back to epoll without one. -/
def Wakes (s : Listening) : ListeningAction → Prop
  | .kill wakeUp => s.sock.armed = true → 0 < s.backlog ∨ wakeUp = true
  | .spin _ epollErr => s.sock.flags.killed = true → epollErr = 0 → 0 < s.backlog
  | _ => True

instance (s : Listening) : Decidable (Woken s) := by
  unfold Woken
  infer_instance

instance (s : Listening) (a : ListeningAction) : Decidable (Wakes s a) := by
  cases a <;> unfold Wakes <;> infer_instance

section Wake

variable {s t : Listening}

/-- What the property speaks of. -/
theorem Woken.congr (h : Woken s) (hkilled : t.sock.flags.killed = s.sock.flags.killed)
    (hlinked : t.linked = true → s.linked = true)
    (hrun : 0 < s.sock.begun + s.sock.spinning → 0 < t.sock.begun + t.sock.spinning)
    (hreported : t.sock.reported = s.sock.reported) (harmed : t.sock.armed = s.sock.armed)
    (hbacklog : s.backlog ≤ t.backlog) : Woken t := by
  intro hk hl
  rw [hreported, harmed]
  rcases h (hkilled ▸ hk) (hlinked hl) with hr | hr | ⟨ha, hb⟩
  · exact Or.inl (hrun hr)
  · exact Or.inr (Or.inl hr)
  · exact Or.inr (Or.inr ⟨ha, Nat.lt_of_lt_of_le hb hbacklog⟩)

/-- A listener that is not killed is not awaited. -/
theorem Woken.of_alive (h : t.sock.flags.killed = false) : Woken t := fun hk =>
  absurd (h.symm.trans hk) (by decide)

/-- A listener that has left the engine, or is in epoll. -/
theorem Back.woken {k : ListenerSOCK} (hback : Back k t.sock)
    (hbacklog : t.sock.armed = true → 0 < t.backlog) : Woken t := by
  intro _ _
  generalize hk : t.sock = k' at hback hbacklog ⊢
  cases hback with
  | armed => exact Or.inr (Or.inr ⟨rfl, hbacklog rfl⟩)
  | left => exact Or.inl (Nat.lt_of_lt_of_le (Nat.succ_pos _) (Nat.le_add_right _ _))

/-- **The end of the loop (proved):** a thread that finds the listener killed needs a connection that is pending. -/
theorem spin_woken_iff {k : ListenerSOCK} (hzero : k.token = 0) (hin : k.flags.inEngine = true) (hl : s.linked = true)
    (hk : k.flags.killed = true) (count : ℕ) (epollErr : Errno) :
    Woken (Listening.spin { s with sock := k } count epollErr) ↔ (epollErr = 0 → 0 < s.backlog) := by
  obtain ⟨ha, hr, hb, hs⟩ := token_zero hzero
  have hspin : listenerSpinWhileThrottling k count epollErr =
      some (ListenerSOCK.beginIf (sockEventListenerRequeue k epollErr)) := by
    unfold listenerSpinWhileThrottling
    rw [if_pos hk]
  unfold Listening.spin
  rw [hspin]
  show Woken { s with sock := _, requeued := _ } ↔ _
  by_cases herr : epollErr = 0
  · have hsock : ListenerSOCK.beginIf (sockEventListenerRequeue k epollErr) =
        { k.unpause with error := 0, armed := true } := by
      simp [sockEventListenerRequeue, ListenerSOCK.requeue, ListenerSOCK.beginIf, herr]
    rw [hsock]
    refine ⟨fun h _ => ?_, fun h => fun _ _ => Or.inr (Or.inr ⟨rfl, h herr⟩)⟩
    rcases h hk hl with hrun | hrep | ⟨_, hback⟩
    · have hrun : 0 < k.begun + k.spinning := hrun
      omega
    · exact absurd (hr.symm.trans hrep) (by decide)
    · exact hback
  · refine iff_of_true (fun _ _ => Or.inl ?_) (fun h => absurd h herr)
    have hsock : ListenerSOCK.beginIf (sockEventListenerRequeue k epollErr) =
        { k.unpause with
          error := epollErr
          flags := { k.unpause.flags with inEngine := false }
          armed := false
          begun := k.begun + 1 } := by
      have hin' : k.unpause.flags.inEngine = true := hin
      simp [sockEventListenerRequeue, ListenerSOCK.requeue, ListenerSOCK.complete, ListenerSOCK.beginIf, herr, hin']
      rfl
    rw [hsock]
    show 0 < k.begun + 1 + k.spinning
    omega

/-- **`SocketEventKill` (proved):** the connection it makes must get through when nothing else wakes the listener. -/
theorem kill_woken_iff (h : ListeningInv s) (wakeUp : Bool) : Woken (s.kill wakeUp) ↔ Wakes s (.kill wakeUp) := by
  have hunlinked : s.linked = false → s.sock.armed = false := by
    intro hl
    have hzero : s.sock.token = 0 := by rw [h.token.token, hl]; rfl
    exact (token_zero hzero).1
  cases hl : s.linked with
  | false =>
    refine iff_of_true (fun _ hlinked => ?_) (fun harmed => absurd ((hunlinked hl).symm.trans harmed) (by decide))
    unfold Listening.kill at hlinked
    split at hlinked <;> exact absurd (hl.symm.trans hlinked) (by decide)
  | true =>
    have htyped := h.typed hl
    have hkilled : (socketEventKill_listen s.sock).flags.killed = true := rfl
    have hsame : (socketEventKill_listen s.sock).armed = s.sock.armed ∧
        (socketEventKill_listen s.sock).reported = s.sock.reported ∧
        (socketEventKill_listen s.sock).begun = s.sock.begun ∧
        (socketEventKill_listen s.sock).spinning = s.sock.spinning := by
      unfold socketEventKill_listen socketListenerResume
      split <;> exact ⟨rfl, rfl, rfl, rfl⟩
    have hone : s.sock.armed.toNat + s.sock.reported.toNat + s.sock.begun + s.sock.spinning = 1 := by
      have htoken := h.token.token
      rw [hl] at htoken
      exact htoken
    have hbacklog : (0 < if wakeUp = true then s.backlog + 1 else s.backlog) ↔ 0 < s.backlog ∨ wakeUp = true := by
      cases wakeUp <;> simp
    unfold Listening.kill Woken Wakes
    rw [if_pos htyped]
    simp only [hkilled, hl, hsame, true_implies, hbacklog]
    constructor
    · intro hwoken harmed
      rw [harmed, Bool.toNat_true] at hone
      rcases hwoken with hrun | hrep | ⟨_, hback⟩
      · omega
      · rw [hrep, Bool.toNat_true] at hone
        omega
      · exact hback
    · intro hwakes
      cases harmed : s.sock.armed with
      | true => exact Or.inr (Or.inr ⟨rfl, hwakes harmed⟩)
      | false =>
        rw [harmed, Bool.toNat_false] at hone
        cases hrep : s.sock.reported with
        | true => exact Or.inr (Or.inl rfl)
        | false =>
          rw [hrep, Bool.toNat_false] at hone
          exact Or.inl (by omega)

/-- **One step (proved):** a listener that is killed stays awaited exactly when the step wakes it. -/
theorem woken_iff {a : ListeningAction} (h : ListeningInv s) (hw : Woken s) (hs : listeningStep s a = some t) :
    Woken t ↔ Wakes s a := by
  cases a with
  | submit a =>
    refine iff_of_true ?_ trivial
    simp only [listeningStep] at hs
    split at hs <;> cases hs
    unfold Listening.submit Listening.refuse
    split
    · exact hw
    next hgo =>
      have halive : s.sock.flags.killed = false := by
        simpa using (not_or.mp hgo).1
      split
      · exact Woken.of_alive halive
      split <;> exact Woken.of_alive halive
  | connection =>
    cases hs
    exact iff_of_true (hw.congr rfl id id rfl rfl (Nat.le_succ _)) trivial
  | epollWait =>
    refine iff_of_true ?_ trivial
    simp only [listeningStep] at hs
    split at hs <;> cases hs
    exact fun _ _ => Or.inr (Or.inl rfl)
  | poll w =>
    refine iff_of_true ?_ trivial
    simp only [listeningStep] at hs
    split at hs
    next hr =>
      have hinv := h.poll hr hs
      obtain ⟨hzero, hin, hpaused, _⟩ := h.taken hr
      unfold Listening.poll at hs
      rw [if_pos hin] at hs
      cases hk : s.sock.flags.killed with
      | true =>
        rw [if_neg (fun hgo => absurd (hk.symm.trans hgo.2) (by decide))] at hs
        cases hs
        have heq : socketEventHandle_listen { s.sock with reported := false } w =
            ListenerSOCK.complete { s.sock with reported := false } := by
          simp [socketEventHandle_listen, hk]
        rw [heq]
        have hback := complete_back (k := { s.sock with reported := false }) hin
        refine hback.woken fun harmed => ?_
        simp [ListenerSOCK.complete, ListenerSOCK.beginIf, hin] at harmed
      | false =>
        have hsame := (poll_tokenInv (w := w) hzero hin hpaused).2
        have hkept : ListenerSOCK.flags (ListenerSOCK.accept { s.sock with reported := false } w) = s.sock.flags := by
          unfold ListenerSOCK.accept
          split <;> rfl
        have halive := hsame.killed.trans ((congrArg ListenerFlags.killed hkept).trans hk)
        split at hs
        · split at hs <;> cases hs
          exact Woken.of_alive halive
        · cases hs
          exact Woken.of_alive halive
    · cases hs
  | handle count epollErr =>
    refine iff_of_true ?_ trivial
    simp only [listeningStep] at hs
    split at hs <;> cases hs
    next n hn =>
      obtain ⟨hlinked, hzero⟩ := h.token.resumeThread n s.sock.spinning (by omega)
      unfold Listening.handle
      split
      next hthrottling =>
        have hflags := Bool.and_eq_true_iff.mp hthrottling
        have hpaused : s.sock.flags.paused = true := hflags.2
        have halive : s.sock.flags.killed = false := by simpa using hflags.1
        refine Woken.of_alive ?_
        unfold Listening.spin
        split
        next k hk =>
          exact (spin_tokenInv hzero (h.token.paused hpaused).1 hpaused hk).2.killed.trans halive
        · exact halive
      · exact fun _ hl => (by cases hl)
  | spin count epollErr =>
    simp only [listeningStep] at hs
    split at hs <;> cases hs
    next n hn =>
      obtain ⟨hlinked, hzero⟩ := h.token.resumeThread s.sock.begun n (by omega)
      have hpaused := h.token.spinning (by omega)
      have hin := (h.token.paused hpaused).1
      cases hk : s.sock.flags.killed with
      | true =>
        simp only [Wakes, hk, true_implies]
        exact spin_woken_iff hzero hin hlinked hk count epollErr
      | false =>
        refine iff_of_true (Woken.of_alive ?_) (fun hkilled => absurd (hk.symm.trans hkilled) (by decide))
        unfold Listening.spin
        split
        next k hspin => exact (spin_tokenInv hzero hin hpaused hspin).2.killed.trans hk
        · exact hk
  | finish =>
    simp only [listeningStep] at hs
    split at hs <;> cases hs
    exact iff_of_true (hw.congr rfl id id rfl rfl (Nat.le_refl _)) trivial
  | notify n =>
    simp only [listeningStep] at hs
    split at hs <;> cases hs
    exact iff_of_true (hw.congr rfl id id rfl rfl (Nat.le_refl _)) trivial
  | look n =>
    simp only [listeningStep] at hs
    split at hs <;> cases hs
    refine iff_of_true ?_ trivial
    unfold Listening.look
    split
    · split
      · exact hw.congr rfl id id rfl rfl (Nat.le_refl _)
      · exact hw
    · exact hw.congr rfl id id rfl rfl (Nat.le_refl _)
  | release n =>
    simp only [listeningStep] at hs
    split at hs <;> cases hs
    refine iff_of_true ?_ trivial
    unfold Listening.release
    split <;> exact hw.congr rfl id id rfl rfl (Nat.le_refl _)
  | call n =>
    simp only [listeningStep] at hs
    split at hs <;> cases hs
    exact iff_of_true (hw.congr rfl id id rfl rfl (Nat.le_refl _)) trivial
  | acceptDone =>
    simp only [listeningStep] at hs
    split at hs <;> cases hs
    refine iff_of_true ?_ trivial
    unfold Listening.acceptDone
    split
    · split <;> exact hw.congr rfl id id rfl rfl (Nat.le_refl _)
    · exact hw.congr rfl id id rfl rfl (Nat.le_refl _)
  | suspend =>
    cases hs
    refine iff_of_true ?_ trivial
    unfold socketListenerSuspend
    split
    · exact hw.congr rfl id id rfl rfl (Nat.le_refl _)
    · exact hw
  | resume =>
    cases hs
    refine iff_of_true ?_ trivial
    unfold socketListenerResume
    split
    · exact hw.congr rfl id id rfl rfl (Nat.le_refl _)
    · exact hw
  | kill wakeUp =>
    cases hs
    exact kill_woken_iff h wakeUp

/-- **A killed listener gets out of the engine (proved)** as long as it is awake whenever it is left to epoll; and it
hangs after any other step. -/
theorem reachable_woken (h : ReachableVia (enabled listeningStep) Wakes Listening.new s) :
    Woken s ∧ ∀ a t, listeningStep s a = some t → (Woken t ↔ Wakes s a) := by
  have hinv : ∀ {s}, ReachableVia (enabled listeningStep) Wakes Listening.new s → ListeningInv s :=
    reachable_listeningInv
  have hwoken : Woken s := by
    induction h with
    | init => exact fun hk => by cases hk
    | next hprev hok hs ih => exact (woken_iff (hinv hprev) ih hs).mpr hok
  exact ⟨hwoken, fun a t hs => woken_iff (hinv h) hwoken hs⟩

end Wake

/-- A listener is killed while a connection is pending, and the poll thread takes it out of the engine. -/
theorem reachable_woken_killed : ∃ s : Listening,
    runFrom listeningStep Listening.new [.submit ⟨0, true, true, 0⟩, .connection, .kill false, .epollWait,
      .poll ⟨false, true, 0, 0, 0⟩] = some s ∧ s.sock.flags.killed = true ∧ s.linked = true ∧ Woken s := by
  have hrun : ∃ s : Listening,
      runFrom (guarded Wakes listeningStep) Listening.new [.submit ⟨0, true, true, 0⟩, .connection, .kill false,
        .epollWait, .poll ⟨false, true, 0, 0, 0⟩] = some s ∧ s.sock.flags.killed = true ∧ s.linked = true ∧
      runFrom listeningStep Listening.new [.submit ⟨0, true, true, 0⟩, .connection, .kill false,
        .epollWait, .poll ⟨false, true, 0, 0, 0⟩] = some s :=
    ⟨_, rfl, rfl, rfl, rfl⟩
  obtain ⟨s, hguarded, hkilled, hlinked, hplain⟩ := hrun
  exact ⟨s, hplain, hkilled, hlinked, (reachable_woken (reachableVia_of_runFrom hguarded)).1⟩

/-- **A listener that nothing will ever wake (proved):** it is killed and the wake-up connection fails. -/
theorem woken_fails : ¬ ∀ s : Listening, Reachable (enabled listeningStep) Listening.new s → Woken s := by
  intro h
  have hrun : ∃ s : Listening,
      runFrom listeningStep Listening.new [.submit ⟨0, true, true, 0⟩, .kill false] = some s ∧ ¬ Woken s :=
    ⟨_, rfl, by decide⟩
  obtain ⟨s, hs, hnot⟩ := hrun
  exact hnot (h s (reachable_of_runFrom hs))

/-! ### Who frees a listener -/

/-- The threads of `HandleSocketEvent` that have not done with the listener. -/
def Listening.handlers (s : Listening) : ℕ := s.sock.begun + s.sock.spinning + s.requeued + s.tearing

/-- **A listener is there for all that use it,** its accept threads are counted, and it is freed once. -/
structure ListenerKept (s : Listening) : Prop where
  /-- no thread has used a NULL listener, and `inAccept` has never been negative -/
  crashed : s.crashed = false
  used : 0 < s.handlers + s.accepting + s.linked.toNat → s.sock.listener.isSome = true
  inAccept : ∀ l, s.sock.listener = some l → l.inAccept = s.accepting
  freed : s.allocated = s.released + s.sock.listener.isSome.toNat

/-- **Only the last thread of `HandleSocketEvent` frees the listener,** when no accept thread runs. -/
def FreedLast (s : Listening) : ListeningAction → Prop
  | .release _ => s.accepting = 0 ∧ s.handlers = 1
  | _ => True

/-- The thread that frees the listener finds that all threads that have put it back have read its
`eventCallback`. -/
def ReadsDone (s : Listening) : ListeningAction → Prop
  | .release _ => s.requeued = 0
  | _ => True

instance (s : Listening) (a : ListeningAction) : Decidable (ReadsDone s a) := by
  cases a <;> unfold ReadsDone <;> infer_instance

section Kept

variable {s t : Listening}

/-- A `SOCK` that is not linked has no token. -/
theorem ListeningInv.no_token (h : ListeningInv s) (hlinked : s.linked = false) :
    s.sock.armed.toNat + s.sock.reported.toNat + s.sock.begun + s.sock.spinning = 0 := by
  have htoken := h.token.token
  rw [hlinked] at htoken
  exact htoken

/-- **Who frees the listener (proved).** -/
theorem freedLast_iff {a : ListeningAction} (h : ListeningInv s) (hs : listeningStep s a = some t) :
    FreedLast s a ↔ ReadsDone s a := by
  cases a with
  | release n =>
    simp only [listeningStep] at hs
    split at hs
    next hn =>
      obtain ⟨hone, hlinked⟩ := h.releasing_alone hn
      have hzero := h.no_token hlinked
      show s.accepting = 0 ∧ s.sock.begun + s.sock.spinning + s.requeued + s.tearing = 1 ↔ s.requeued = 0
      constructor
      · rintro ⟨_, hhandlers⟩
        omega
      · intro hrequeued
        exact ⟨h.ledger.releasing n hn, by omega⟩
    · cases hs
  | _ => exact Iff.rfl

/-- **The threads that have put the listener back** find it when they read it. -/
structure ReadsInv (s : Listening) : Prop where
  crashed : s.crashed = false
  requeued : 0 < s.requeued → s.sock.listener.isSome = true

theorem ReadsInv.congr (h : ReadsInv s) (hcrashed : t.crashed = s.crashed) (hrequeued : t.requeued = s.requeued)
    (hlistener : t.sock.listener.isSome = s.sock.listener.isSome) : ReadsInv t :=
  ⟨hcrashed.trans h.crashed, fun hpos => hlistener.trans (h.requeued (hrequeued ▸ hpos))⟩

/-- A listener that is used is there. -/
theorem ListeningInv.kept (h : ListeningInv s) (hr : ReadsInv s) : ListenerKept s := by
  refine ⟨hr.crashed, fun hused => ?_, fun l hl => ?_, h.ledger.ledger⟩
  · cases hnone : s.sock.listener with
    | some l => rfl
    | none =>
      obtain ⟨hlinked, htearing, haccepting⟩ := h.unlinked hnone
      have hrequeued : s.requeued = 0 := by
        by_contra hpos
        have hsome := hr.requeued (Nat.pos_of_ne_zero hpos)
        rw [hnone] at hsome
        cases hsome
      have hzero := h.no_token hlinked
      rw [hlinked, Bool.toNat_false] at hused
      have hused : 0 < s.sock.begun + s.sock.spinning + s.requeued + s.tearing + s.accepting + 0 := hused
      omega
  · rw [h.ledger.accepting, hl]
    rfl

/-- A round of the loop. -/
theorem ReadsInv.spin (h : ReadsInv s) (hinv : ListeningInv s) (hlinked : s.linked = true) {k : ListenerSOCK}
    (hzero : k.token = 0) (hin : k.flags.inEngine = true) (hpaused : k.flags.paused = true)
    (hlistener : k.listener = s.sock.listener) (count : ℕ) (epollErr : Errno) :
    ReadsInv (Listening.spin { s with sock := k } count epollErr) := by
  obtain ⟨l, hl⟩ := hinv.listener (by rw [hlinked, Bool.toNat_true]; omega)
  obtain ⟨k', hk'⟩ := hinv.spin_some hlinked hlistener count epollErr
  obtain ⟨_, hsame⟩ := spin_tokenInv hzero hin hpaused hk'
  unfold Listening.spin
  rw [hk']
  refine ⟨h.crashed, fun _ => ?_⟩
  show k'.listener.isSome = true
  rw [hsame.listener, hlistener, hl]
  rfl

/-- **One step (proved)** of a run in which the listener is freed in time. -/
theorem readsInv_step {a : ListeningAction} (hinv : ListeningInv s) (h : ReadsInv s) (hok : ReadsDone s a)
    (hs : listeningStep s a = some t) : ReadsInv t := by
  cases a with
  | submit a =>
    simp only [listeningStep] at hs
    split at hs <;> cases hs
    next hnone =>
      have hrequeued : ¬ 0 < s.requeued := by
        intro hpos
        have hsome := h.requeued hpos
        rw [hnone] at hsome
        cases hsome
      unfold Listening.submit Listening.refuse
      split
      · exact h
      split
      · exact ⟨h.crashed, fun hpos => absurd hpos hrequeued⟩
      split <;> exact ⟨h.crashed, fun hpos => absurd hpos hrequeued⟩
  | connection =>
    cases hs
    exact h.congr rfl rfl rfl
  | epollWait =>
    simp only [listeningStep] at hs
    split at hs <;> cases hs
    exact h.congr rfl rfl rfl
  | poll w =>
    simp only [listeningStep] at hs
    split at hs
    next hr =>
      obtain ⟨hzero, hin, hpaused, hlinked⟩ := hinv.taken hr
      obtain ⟨l, hl⟩ := hinv.listener (by rw [hlinked, Bool.toNat_true]; omega)
      have hlistener := (poll_tokenInv (w := w) hzero hin hpaused).2.listener
      have hkept : (ListenerSOCK.accept { s.sock with reported := false } w).listener.isSome = true := by
        unfold ListenerSOCK.accept acceptReady
        split
        · simp only [hl]
          split <;> rfl
        · simp only [hl]
          rfl
      rw [← hlistener] at hkept
      unfold Listening.poll at hs
      rw [if_pos hin] at hs
      split at hs
      · split at hs <;> cases hs
        refine ⟨?_, fun _ => hkept⟩
        show (s.crashed || (w.acceptEvent && s.sock.listener.isNone)) = false
        rw [h.crashed, hl]
        simp
      · cases hs
        exact ⟨h.crashed, fun _ => hkept⟩
    · cases hs
  | handle count epollErr =>
    simp only [listeningStep] at hs
    split at hs <;> cases hs
    next n hn =>
      obtain ⟨hlinked, hzero⟩ := hinv.token.resumeThread n s.sock.spinning (by omega)
      unfold Listening.handle
      split
      next hthrottling =>
        have hpaused : s.sock.flags.paused = true := (Bool.and_eq_true_iff.mp hthrottling).2
        exact h.spin hinv hlinked hzero (hinv.token.paused hpaused).1 hpaused rfl count epollErr
      · refine ⟨?_, h.requeued⟩
        show (s.crashed || !s.linked) = false
        rw [h.crashed, hlinked]
        rfl
  | spin count epollErr =>
    simp only [listeningStep] at hs
    split at hs <;> cases hs
    next n hn =>
      obtain ⟨hlinked, hzero⟩ := hinv.token.resumeThread s.sock.begun n (by omega)
      have hpaused := hinv.token.spinning (by omega)
      exact h.spin hinv hlinked hzero (hinv.token.paused hpaused).1 hpaused rfl count epollErr
  | finish =>
    simp only [listeningStep] at hs
    split at hs <;> cases hs
    next hpos =>
      have hsome := h.requeued hpos
      refine ⟨?_, fun _ => hsome⟩
      show (s.crashed || s.sock.listener.isNone) = false
      rw [h.crashed, ← Option.not_isSome, hsome]
      rfl
  | notify n =>
    simp only [listeningStep] at hs
    split at hs <;> cases hs
    next hn =>
      obtain ⟨l, hl⟩ := hinv.listener_of_ending hn (by simp)
      refine ⟨?_, h.requeued⟩
      show (s.crashed || s.sock.listener.isNone) = false
      rw [h.crashed, hl]
      rfl
  | look n =>
    simp only [listeningStep] at hs
    split at hs <;> cases hs
    next hn =>
      obtain ⟨l, hl⟩ := hinv.listener_of_ending hn (by simp)
      unfold Listening.look
      rw [hl]
      show ReadsInv (if l.inAccept < 1 then _ else _)
      split
      · exact h.congr rfl rfl rfl
      · exact h
  | release n =>
    simp only [listeningStep] at hs
    split at hs <;> cases hs
    next hn =>
      obtain ⟨l, hl⟩ := hinv.listener_of_ending hn (by simp)
      have hzero : s.requeued = 0 := hok
      unfold Listening.release
      rw [hl]
      refine ⟨h.crashed, fun hpos => ?_⟩
      have hpos : 0 < s.requeued := hpos
      omega
  | call n =>
    simp only [listeningStep] at hs
    split at hs <;> cases hs
    exact h.congr rfl rfl rfl
  | acceptDone =>
    simp only [listeningStep] at hs
    split at hs <;> cases hs
    next hpos =>
      have haccepting := hinv.ledger.accepting
      unfold Listening.acceptDone
      cases hl : s.sock.listener with
      | none =>
        rw [hl, Option.elim_none] at haccepting
        omega
      | some l =>
        rw [hl, Option.elim_some] at haccepting
        show ReadsInv (if l.inAccept = 0 then _ else _)
        rw [if_neg (by omega)]
        exact ⟨h.crashed, fun _ => rfl⟩
  | suspend =>
    cases hs
    unfold socketListenerSuspend
    split
    · exact h.congr rfl rfl rfl
    · exact h
  | resume =>
    cases hs
    unfold socketListenerResume
    split
    · exact h.congr rfl rfl rfl
    · exact h
  | kill wakeUp =>
    cases hs
    unfold Listening.kill socketEventKill_listen socketListenerResume
    split
    · split <;> exact h.congr rfl rfl rfl
    · split <;> exact h.congr rfl rfl rfl

/-- **A listener outlives its threads (proved)** when each one that has put it back has read it before another one
frees it; otherwise it is freed under that thread. -/
theorem reachable_listenerKept (h : ReachableVia (enabled listeningStep) ReadsDone Listening.new s) :
    ListenerKept s ∧ ∀ a t, listeningStep s a = some t → (FreedLast s a ↔ ReadsDone s a) := by
  have hinv : ∀ {s}, ReachableVia (enabled listeningStep) ReadsDone Listening.new s → ListeningInv s :=
    reachable_listeningInv
  have hreads : ReadsInv s := by
    induction h with
    | init => exact ⟨rfl, fun hpos => absurd hpos (by decide)⟩
    | next hprev hok hs ih => exact readsInv_step (hinv hprev) ih hok hs
  exact ⟨(hinv h).kept hreads, fun a t hs => freedLast_iff (hinv h) hs⟩

end Kept

/-- A listener accepts a connection, is killed and freed. -/
theorem reachable_listenerKept_freed : ∃ s : Listening,
    runFrom listeningStep Listening.new [.submit ⟨0, true, true, 0⟩, .connection, .epollWait,
      .poll ⟨true, true, 0, 0, 0⟩, .kill true, .epollWait, .poll ⟨false, true, 0, 0, 0⟩, .handle 0 0, .notify 1,
      .acceptDone, .look 1, .release 1, .call 1] = some s ∧ s.released = 1 ∧ ListenerKept s := by
  have hrun : ∃ s : Listening,
      runFrom (guarded ReadsDone listeningStep) Listening.new [.submit ⟨0, true, true, 0⟩, .connection, .epollWait,
        .poll ⟨true, true, 0, 0, 0⟩, .kill true, .epollWait, .poll ⟨false, true, 0, 0, 0⟩, .handle 0 0, .notify 1,
        .acceptDone, .look 1, .release 1, .call 1] = some s ∧ s.released = 1 ∧
      runFrom listeningStep Listening.new [.submit ⟨0, true, true, 0⟩, .connection, .epollWait,
        .poll ⟨true, true, 0, 0, 0⟩, .kill true, .epollWait, .poll ⟨false, true, 0, 0, 0⟩, .handle 0 0, .notify 1,
        .acceptDone, .look 1, .release 1, .call 1] = some s :=
    ⟨_, rfl, rfl, rfl⟩
  obtain ⟨s, hguarded, hreleased, hplain⟩ := hrun
  exact ⟨s, hplain, hreleased, (reachable_listenerKept (reachableVia_of_runFrom hguarded)).1⟩

/-- **A listener is used after it has been freed (proved):** a thread has put it back and not read it yet when it is
killed and torn down. -/
theorem listenerKept_fails : ¬ ∀ s : Listening, Reachable (enabled listeningStep) Listening.new s →
    ListenerKept s := by
  intro h
  have hrun : ∃ s : Listening,
      runFrom listeningStep Listening.new [.submit ⟨1, true, true, 0⟩, .connection, .suspend, .epollWait,
        .poll ⟨true, true, 2, 2, 0⟩, .acceptDone, .resume, .handle 1 0, .kill true, .epollWait,
        .poll ⟨false, true, 1, 1, 0⟩, .handle 1 0, .notify 1, .look 1, .release 1, .finish] = some s ∧
      s.crashed = true :=
    ⟨_, rfl, rfl⟩
  obtain ⟨s, hs, hcrashed⟩ := hrun
  exact absurd (hcrashed.symm.trans (h s (reachable_of_runFrom hs)).crashed) (by decide)

end Connio
