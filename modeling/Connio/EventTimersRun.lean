import Connio.EventTimersInv

/-!
# The timers of socket events are freed once

* `timerStep_inv` — **PROVED**: the step lemma;
* `timerStep_marks` — **PROVED**: an event is marked by a timer that is linked to it;
* `reachable_timers` — **PROVED**: the timers are sound as long as they are freed in time;
* `timers_fail` — **PROVED**: `TimerKill` locks a timer that has been freed.
-/

namespace Connio

open Connio.Lib

section Steps

variable {s s' : TimerSystem} {a : TimerAction}

/-- **The step lemma (proved).** -/
theorem timerStep_inv (h : TimerInv s) (hok : FreedInTime s a) (hstep : timerStep s a = some s') : TimerInv s' := by
  cases a with
  | alloc => exact h.alloc hstep
  | submit => exact h.submit hstep
  | enqueue => exact h.enqueue hstep
  | activate => exact h.activate hstep
  | read => exact h.read hstep
  | kill => exact h.kill hok hstep
  | start => exact h.start hstep
  | enter e =>
    simp only [timerStep] at hstep
    split at hstep
    next hslock =>
      cases hstep
      exact h.enter hslock
    · cases hstep
  | leave e =>
    simp only [timerStep] at hstep
    split at hstep
    next hslock =>
      cases hstep
      exact h.leave hslock
    · cases hstep
  | complete e =>
    simp only [timerStep] at hstep
    split at hstep
    next hslock =>
      cases hstep
      exact h.complete hslock.1
    · cases hstep
  | free e =>
    simp only [timerStep] at hstep
    split at hstep
    next e' t hslock =>
      split at hstep
      next he =>
        subst he
        cases hstep
        exact h.killFree hslock
      · cases hstep
    · cases hstep
  | finish e =>
    simp only [timerStep] at hstep
    split at hstep
    next hslock =>
      cases hstep
      exact h.finish hslock _ _
    · cases hstep
  | clear e =>
    simp only [timerStep] at hstep
    split at hstep
    · cases hstep
      have hset := h.setEvent (e := e) (v := { s.event e with timedout := false }) rfl (Or.inl rfl) (Or.inr (Or.inl rfl))
      exact hset.setClearing _
    · cases hstep
  | pull =>
    simp only [timerStep] at hstep
    split at hstep
    next hthread =>
      cases hstep
      exact h.pull hthread
    · cases hstep
  | discard =>
    simp only [timerStep] at hstep
    split at hstep
    next t hthread =>
      cases hstep
      exact h.threadFree (congrArg TimerPlace.timer hthread) (Or.inl hthread) (hok t hthread) rfl (Or.inr rfl)
    · cases hstep
  | rest =>
    simp only [timerStep] at hstep
    split at hstep
    next hrest =>
      cases hstep
      exact h.setThread (congrArg TimerPlace.timer hrest.1).symm (Or.inl hrest.2) fun t e _ => ⟨by simp, by simp⟩
    · cases hstep
  | fire t =>
    simp only [timerStep] at hstep
    split at hstep
    next harmed =>
      cases hstep
      exact h.fire harmed
    · cases hstep
  | call t =>
    simp only [timerStep] at hstep
    split at hstep
    next hcall =>
      cases hstep
      exact h.call hcall.1 hcall.2
    · cases hstep
  | expire =>
    simp only [timerStep] at hstep
    split at hstep
    next t hthread =>
      have htimer : s.thread.timer = some t := congrArg TimerPlace.timer hthread
      rw [use_eq (h.unfreed (r := .thread) htimer (by simp))] at hstep
      cases hstep
      have hexpire := h.expire (t := t) (Or.inr htimer)
      have hsame : (s.expire t).thread = s.thread := by rw [expire_frame]
      have hchain : (s.expire t).chain = s.chain := by rw [expire_frame]
      refine hexpire.setThread ?_ (Or.inl ?_) fun t' e hse => ⟨by simp, ?_⟩
      · rw [hsame, htimer]
        rfl
      · rw [hchain]
        exact h.chain_nil (by simp [hthread]) (by simp [hthread])
      · rintro ⟨⟩
        cases (expire_se s t).symm.trans hse
    · cases hstep
  | release =>
    simp only [timerStep] at hstep
    split at hstep
    next t hthread =>
      cases hstep
      refine h.threadFree (congrArg TimerPlace.timer hthread) (Or.inr hthread) (hok t hthread) rfl (Or.inl ?_)
      exact h.chain_nil (by simp [hthread]) (by simp [hthread])
    · cases hstep

/-- A changed event is not marked. -/
theorem timedout_of_update {f : ℕ → TimedSocketEvent} {e e' : ℕ} {v : TimedSocketEvent}
    (h : (Function.update f e' v e).timedout = true) (hv : v.timedout = true → (f e').timedout = true) :
    (f e).timedout = true := by
  by_cases he : e = e'
  · rw [he, Function.update_self] at h
    rw [he]
    exact hv h
  · rw [Function.update_of_ne he] at h
    exact h

/-- What a timer marks. -/
theorem timedout_of_expire {e t : ℕ} (h : ((s.expire t).event e).timedout = true) : (s.event e).timedout = true ∨
    (s.event e).active = true ∧ (s.timer t).se = some e := by
  unfold TimerSystem.expire at h
  split at h
  next e' hse =>
    have hunlink : ((s.seTimerUnlink e' t).event e).timedout = true → (s.event e).timedout = true :=
      fun ht => timedout_of_update (f := s.event) ht fun ht => ht
    by_cases hactive : ((s.seTimerUnlink e' t).event e').active = true ∧ s.type e' ≠ .disconnect
    · rw [eventTimeout_pos hactive] at h
      by_cases he : e = e'
      · subst he
        refine Or.inr ⟨?_, hse⟩
        have hsame := event_setEvent s e (v := { s.event e with timer := none }) TimedSocketEvent.active rfl e
        exact hsame.symm.trans hactive.1
      · have hother : ((s.seTimerUnlink e' t).event e).timedout = true := by
          change (Function.update (s.seTimerUnlink e' t).event e' _ e).timedout = true at h
          rw [Function.update_of_ne he] at h
          exact h
        exact Or.inl (hunlink hother)
    · rw [eventTimeout_neg hactive] at h
      exact Or.inl (hunlink h)
  · exact Or.inl h

/-- Only a timer marks an event: the other steps keep `timedout`, or set it to FALSE. -/
theorem timerStep_keeps {e : ℕ} (hstep : timerStep s a = some s') (hexpire : a ≠ .expire) (hstart : ∀ ok, a ≠ .start ok)
    (hafter : (s'.event e).timedout = true) : (s.event e).timedout = true := by
  cases a with
  | expire => exact absurd rfl hexpire
  | start ok => exact absurd rfl (hstart ok)
  | alloc e' answer =>
    simp only [timerStep] at hstep
    split at hstep
    · suffices hset : ((s.setEvent e' { s.event e' with timedout := false, error := 0 }).event e).timedout = true from
        timedout_of_update (f := s.event) hset fun hfalse => by cases hfalse
      generalize s.setEvent e' { s.event e' with timedout := false, error := 0 } = s₁ at hstep
      split at hstep
      · split at hstep <;>
          · cases hstep
            exact hafter
      · cases answer with
        | infinite =>
          cases hstep
          exact timedout_of_update (f := s₁.event) hafter fun ht => ht
        | error =>
          cases hstep
          exact hafter
        | timer =>
          cases hstep
          exact timedout_of_update (f := s₁.event) hafter fun ht => ht
    · cases hstep
  | submit e' ok =>
    simp only [timerStep] at hstep
    split at hstep
    next t₀ _ =>
      split at hstep
      next he =>
        subst he
        split at hstep
        · cases hstep
          exact timedout_of_update (f := s.event) hafter fun ht => ht
        · cases hstep
          cases t₀ with
          | none => exact timedout_of_update (f := s.event) hafter fun ht => ht
          | some t => exact timedout_of_update (f := s.event) hafter fun ht => ht
      · cases hstep
    · cases hstep
  | enqueue e' =>
    simp only [timerStep] at hstep
    split at hstep
    all_goals first | (split at hstep <;> cases hstep) | cases hstep
    all_goals exact hafter
  | activate e' =>
    simp only [timerStep] at hstep
    split at hstep
    all_goals first | (split at hstep <;> cases hstep) | cases hstep
    all_goals exact timedout_of_update (f := s.event) hafter fun ht => ht
  | kill e' ok =>
    simp only [timerStep] at hstep
    split at hstep
    next t _ =>
      split at hstep
      · split at hstep <;>
          · cases hstep
            exact timedout_of_update (f := s.event) hafter fun ht => ht
      · cases hstep
    · cases hstep
  | read e' =>
    simp only [timerStep] at hstep
    split at hstep
    · split at hstep
      · cases hstep
        exact timedout_of_update (f := s.event) hafter fun ht => ht
      · cases hstep
        exact hafter
    · cases hstep
  | free e' =>
    simp only [timerStep] at hstep
    split at hstep
    · split at hstep
      · cases hstep
        exact hafter
      · cases hstep
    · cases hstep
  | complete e' =>
    simp only [timerStep] at hstep
    split at hstep
    · cases hstep
      exact timedout_of_update (f := s.event) hafter fun ht => ht
    · cases hstep
  | finish e' =>
    simp only [timerStep] at hstep
    split at hstep
    · cases hstep
      exact timedout_of_update (f := s.event) hafter fun ht => ht
    · cases hstep
  | clear e' =>
    simp only [timerStep] at hstep
    split at hstep
    · cases hstep
      exact timedout_of_update (f := s.event) hafter fun hfalse => by cases hfalse
    · cases hstep
  | discard =>
    simp only [timerStep] at hstep
    split at hstep
    · cases hstep
      exact hafter
    · cases hstep
  | release =>
    simp only [timerStep] at hstep
    split at hstep
    · cases hstep
      exact hafter
    · cases hstep
  | enter | leave | pull | rest | fire | call =>
    simp only [timerStep] at hstep
    split at hstep
    · cases hstep
      exact hafter
    · cases hstep

/-- **An event is marked by a timer that is linked to it (proved),** while it is active. -/
theorem timerStep_marks {e : ℕ} (hstep : timerStep s a = some s') (hbefore : (s.event e).timedout = false)
    (hafter : (s'.event e).timedout = true) : (s.event e).active = true ∧ ∃ t, (s.timer t).se = some e := by
  have hno : (s.event e).timedout ≠ true := by simp [hbefore]
  cases a with
  | start ok =>
    simp only [timerStep] at hstep
    split at hstep
    next t chain _ _ =>
      split at hstep
      · cases hstep
        exact absurd hafter hno
      · split at hstep
        · cases hstep
          exact absurd hafter hno
        · cases hstep
          rcases timedout_of_expire (s := { s.use t with chain := chain }) hafter with hwas | ⟨hactive, hse⟩
          · exact absurd hwas hno
          · exact ⟨hactive, t, hse⟩
    · cases hstep
  | expire =>
    simp only [timerStep] at hstep
    split at hstep
    next t _ =>
      cases hstep
      rcases timedout_of_expire (s := s.use t) hafter with hwas | ⟨hactive, hse⟩
      · exact absurd hwas hno
      · exact ⟨hactive, t, hse⟩
    · cases hstep
  | _ => exact absurd (timerStep_keeps hstep (by simp) (by simp) hafter) hno

theorem TimerInv.sound (h : TimerInv s) : TimersSound s where
  once := h.once
  frees := h.frees
  used := h.used
  quiet := by
    intro hslock hqueue hchain hthread hrun t ht
    obtain ⟨r, hr, _⟩ := h.once t
    cases r with
    | unborn => exact absurd ht (Nat.not_lt.mpr hr)
    | holder k =>
      change (s.slock k).bind SlockPlace.owns = some t at hr
      rw [hslock] at hr
      cases hr
    | queued =>
      change t ∈ s.queue at hr
      rw [hqueue] at hr
      cases hr
    | pulled =>
      change t ∈ s.chain at hr
      rw [hchain] at hr
      cases hr
    | running =>
      change (s.timer t).armed = true ∨ (s.timer t).fired = true at hr
      simp [hrun t] at hr
    | thread =>
      change s.thread.timer = some t at hr
      rw [hthread] at hr
      cases hr
    | freed => exact hr
  linked := h.made
  marks := fun _ _ _ hstep hbefore hafter => timerStep_marks hstep hbefore hafter

end Steps

/-- Before any event is submitted. -/
theorem timerInv_init (cs : ℕ → ℕ) (type : ℕ → SocketEventType) : TimerInv { cs := cs, type := type } where
  frees := fun _ => Nat.zero_le 1
  used := rfl
  queue := List.nodup_nil
  chain := List.nodup_nil
  rests := Or.inl rfl
  due := fun _ _ => rfl
  sync := fun t e => ⟨fun h => (by cases h), fun h => (by cases h)⟩
  made := fun t e h => by cases h
  alive := fun t e h => by cases h
  done := fun t e h => by cases h
  places := fun k p h => by cases h
  owned := fun k p t h => by cases h
  links := fun k p t h => by cases h
  killing := fun k e t h => by cases h
  killed := fun k e t h => by cases h
  idle := fun e t h => by cases h
  once := by
    refine fun t => ⟨.unborn, Nat.zero_le t, fun r hr => ?_⟩
    cases r with
    | unborn => rfl
    | running => rcases hr with hr | hr <;> cases hr
    | _ => cases hr

/-- **The timers are sound as long as they are freed in time (proved).** -/
theorem reachable_timers (cs : ℕ → ℕ) (type : ℕ → SocketEventType) {s : TimerSystem}
    (h : ReachableVia (enabled timerStep) FreedInTime { cs := cs, type := type } s) : TimersSound s := by
  have hinv : TimerInv s := by
    refine h.invariant (timerInv_init cs type) ?_
    intro s a s' hs hok hstep
    exact timerStep_inv hs hok hstep
  exact hinv.sound

/-- A read event times out: the timer thread starts its timer, and the callback frees it. -/
theorem reachable_timers_expired : ∃ s, ReachableVia (enabled timerStep) FreedInTime
    { cs := fun _ => 0, type := fun _ => .readable } s ∧ TimersSound s ∧ (s.timer 0).frees = 1 ∧
    (s.event 0).timedout = true := by
  have hrun : ∃ s, runFrom (guarded FreedInTime timerStep) { cs := fun _ => 0, type := fun _ => .readable }
      [.enter 0, .alloc 0 .timer, .submit 0 true, .enqueue 0, .activate 0, .leave 0, .pull, .start true, .rest, .fire 0,
        .call 0, .expire, .release] = some s ∧ (s.timer 0).frees = 1 ∧ (s.event 0).timedout = true := ⟨_, rfl, rfl, rfl⟩
  obtain ⟨s, hrun, hfrees, htimedout⟩ := hrun
  have hreach := reachableVia_of_runFrom hrun
  exact ⟨s, hreach, reachable_timers _ _ hreach, hfrees, htimedout⟩

/-- **`TimerKill` locks a timer that has been freed (proved).**  It has read `se->timer`; the callback unlinks the timer
and frees it; then `TimerKill` takes its lock. -/
theorem timers_fail : ∃ s, Reachable (enabled timerStep) { cs := fun _ => 0, type := fun _ => .readable } s ∧
    ¬ TimersSound s := by
  have hrun : ∃ s, runFrom timerStep { cs := fun _ => 0, type := fun _ => .readable }
      [.enter 0, .alloc 0 .timer, .submit 0 true, .enqueue 0, .activate 0, .leave 0, .pull, .start true, .rest, .fire 0,
        .complete 0, .read 0, .call 0, .expire, .release, .kill 0 true] = some s ∧ s.misused = true := ⟨_, rfl, rfl⟩
  obtain ⟨s, hrun, hmisused⟩ := hrun
  refine ⟨s, reachable_of_runFrom hrun, fun h => ?_⟩
  cases hmisused.symm.trans h.used

end Connio
