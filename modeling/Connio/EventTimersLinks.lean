import Connio.EventTimers

/-!
# How timers, events and threads are linked

The part of the invariant of `EventTimers` that does not say who is going to free a timer, and what each operation on a
timer, an event or a place does to it.

* `TimerLinks` — the links; `TimerInv` — and each timer has one role;
* `TimerLinks.setPlace`, `TimerLinks.setEvent`, `TimerLinks.setTimer` — **PROVED**: one of them changes;
* `TimerLinks.unlink`, `TimerLinks.seTimerFree`, `TimerLinks.expire`, `TimerInv.seTimerLink` — **PROVED**: the operations
  on a timer.
-/

namespace Connio

/-- **How timers, events and threads are linked.** -/
structure TimerLinks (s : TimerSystem) : Prop where
  frees : ∀ t, (s.timer t).frees ≤ 1
  used : s.misused = false
  queue : s.queue.Nodup
  chain : s.chain.Nodup
  rests : s.chain = [] ∨ s.thread = .starting ∨ ∃ t, s.thread = .rejected t
  due : ∀ t, (s.timer t).armed = true → (s.timer t).fired = false
  sync : ∀ t e, (s.timer t).se = some e ↔ (s.event e).timer = some t
  made : ∀ t e, (s.timer t).se = some e → (s.timer t).event = e ∧ (s.timer t).sub = (s.event e).sub
  alive : ∀ t e, (s.timer t).se = some e → t < s.allocated ∧ (s.timer t).frees = 0
  done : ∀ t e, (s.timer t).se = some e → s.thread ≠ .rejected t ∧ s.thread ≠ .called t
  places : ∀ k p, s.slock k = some p → s.cs p.event = k
  owned : ∀ k p t, s.slock k = some p → p.owns = some t → (s.timer t).event = p.event
  links : ∀ k p t, s.slock k = some p → p.links = some t → (s.event p.event).timer = t
  /-- `TimerKill` locks a timer that has not been freed -/
  killing : ∀ k e t, s.slock k = some (.killing e t) → (s.timer t).event = e ∧
    ((s.event e).timer = none ∨ (s.event e).timer = some t) ∧ t < s.allocated ∧ (s.timer t).frees = 0
  killed : ∀ k e t, s.slock k = some (.killed e t) → (s.event e).timer = none ∧ ∀ t', t = some t' →
    (s.timer t').se = none
  /-- the timer of an event that is not active -/
  idle : ∀ e t, (s.event e).timer = some t → (s.event e).active = true ∨
    ∃ p, s.slock (s.cs e) = some p ∧ p.event = e ∧ p.between = true

/-- **The invariant of the timers.** -/
structure TimerInv (s : TimerSystem) : Prop extends TimerLinks s where
  once : ∀ t, ∃! r, s.At t r

section Links

variable {s : TimerSystem} {e t : ℕ}

/-- What a changed timer keeps. -/
theorem timer_setTimer {α : Type} (s : TimerSystem) (t : ℕ) {v : SeTimer} (f : SeTimer → α)
    (hf : f v = f (s.timer t)) (t' : ℕ) : f ((s.setTimer t v).timer t') = f (s.timer t') := by
  change f (Function.update s.timer t v t') = _
  by_cases ht : t' = t
  · rw [ht, Function.update_self, hf]
  · rw [Function.update_of_ne ht]

/-- What a changed event keeps. -/
theorem event_setEvent {α : Type} (s : TimerSystem) (e : ℕ) {v : TimedSocketEvent} (f : TimedSocketEvent → α)
    (hf : f v = f (s.event e)) (e' : ℕ) : f ((s.setEvent e v).event e') = f (s.event e') := by
  change f (Function.update s.event e v e') = _
  by_cases he : e' = e
  · rw [he, Function.update_self, hf]
  · rw [Function.update_of_ne he]

theorem slock_place (s : TimerSystem) (e : ℕ) (p' : Option SlockPlace) {k : ℕ} {p : SlockPlace}
    (hp : (s.place e p').slock k = some p) : k = s.cs e ∧ p' = some p ∨ k ≠ s.cs e ∧ s.slock k = some p := by
  change Function.update s.slock (s.cs e) p' k = some p at hp
  by_cases hk : k = s.cs e
  · rw [hk, Function.update_self] at hp
    exact Or.inl ⟨hk, hp⟩
  · rw [Function.update_of_ne hk] at hp
    exact Or.inr ⟨hk, hp⟩

/-- A thread goes on with its `slock`. -/
theorem TimerLinks.setPlace (h : TimerLinks s) {p' : Option SlockPlace}
    (hold : ∀ p, s.slock (s.cs e) = some p → p.event = e) (hnew : ∀ p, p' = some p → p.event = e)
    (howned : ∀ p t, p' = some p → p.owns = some t → (s.timer t).event = e)
    (hlinks : ∀ p t, p' = some p → p.links = some t → (s.event e).timer = t)
    (hkilling : ∀ t, p' = some (.killing e t) → (s.timer t).event = e ∧
      ((s.event e).timer = none ∨ (s.event e).timer = some t) ∧ t < s.allocated ∧ (s.timer t).frees = 0)
    (hkilled : ∀ t, p' = some (.killed e t) → (s.event e).timer = none ∧ ∀ t', t = some t' → (s.timer t').se = none)
    (hidle : ∀ t, (s.event e).timer = some t → (s.event e).active = true ∨ ∃ p, p' = some p ∧ p.between = true) :
    TimerLinks (s.place e p') := by
  exact { h with
    places := fun k p hp => by
      rcases slock_place s e p' hp with ⟨hk, hp'⟩ | ⟨_, hp'⟩
      · rw [hk]
        exact congrArg s.cs (hnew p hp')
      · exact h.places k p hp'
    owned := fun k p t hp howns => by
      rcases slock_place s e p' hp with ⟨_, hp'⟩ | ⟨_, hp'⟩
      · rw [hnew p hp']
        exact howned p t hp' howns
      · exact h.owned k p t hp' howns
    links := fun k p t hp hplinks => by
      rcases slock_place s e p' hp with ⟨_, hp'⟩ | ⟨_, hp'⟩
      · rw [hnew p hp']
        exact hlinks p t hp' hplinks
      · exact h.links k p t hp' hplinks
    killing := fun k e' t hp => by
      rcases slock_place s e p' hp with ⟨_, hp'⟩ | ⟨_, hp'⟩
      · obtain rfl : e' = e := hnew _ hp'
        exact hkilling t hp'
      · exact h.killing k e' t hp'
    killed := fun k e' t hp => by
      rcases slock_place s e p' hp with ⟨_, hp'⟩ | ⟨_, hp'⟩
      · obtain rfl : e' = e := hnew _ hp'
        exact hkilled t hp'
      · exact h.killed k e' t hp'
    idle := fun e' t htimer => by
      by_cases he : e' = e
      · subst he
        rcases hidle t htimer with hactive | ⟨p, hp, hbetween⟩
        · exact Or.inl hactive
        · exact Or.inr ⟨p, (Function.update_self _ _ _).trans hp, hnew p hp, hbetween⟩
      · rcases h.idle e' t htimer with hactive | ⟨p, hp, hevent, hbetween⟩
        · exact Or.inl hactive
        · refine Or.inr ⟨p, ?_, hevent, hbetween⟩
          have hk : s.cs e' ≠ s.cs e := by
            intro hk
            rw [hk] at hp
            exact he (hevent.symm.trans (hold p hp))
          exact (Function.update_of_ne hk _ _).trans hp }

/-- An event changes, but not its timer. -/
theorem TimerLinks.setEvent (h : TimerLinks s) {v : TimedSocketEvent} (htimer : v.timer = (s.event e).timer)
    (hsub : v.sub = (s.event e).sub ∨ v.timer = none) (hactive : v.active = true ∨ v.active = (s.event e).active ∨
      v.timer = none ∨ ∃ p, s.slock (s.cs e) = some p ∧ p.event = e ∧ p.between = true) :
    TimerLinks (s.setEvent e v) := by
  have hsame : ∀ e', ((s.setEvent e v).event e').timer = (s.event e').timer :=
    event_setEvent s e TimedSocketEvent.timer htimer
  exact { h with
    sync := fun t e' => by
      rw [hsame]
      exact h.sync t e'
    made := fun t e' hse => by
      obtain ⟨hevent, hsub'⟩ := h.made t e' hse
      refine ⟨hevent, hsub'.trans ?_⟩
      change _ = (Function.update s.event e v e').sub
      by_cases he : e' = e
      · rw [he, Function.update_self]
        rcases hsub with hsub | hnone
        · exact hsub.symm
        · have htimer' := (h.sync t e').mp hse
          rw [he, ← htimer, hnone] at htimer'
          cases htimer'
      · rw [Function.update_of_ne he]
    links := fun k p t hp hplinks => (hsame _).trans (h.links k p t hp hplinks)
    killing := fun k e' t hp => by
      rw [hsame]
      exact h.killing k e' t hp
    killed := fun k e' t hp => ⟨(hsame _).trans (h.killed k e' t hp).1, (h.killed k e' t hp).2⟩
    idle := fun e' t htimer' => by
      rw [hsame] at htimer'
      change (Function.update s.event e v e').active = true ∨ _
      by_cases he : e' = e
      · rw [he, Function.update_self]
        rw [he] at htimer'
        rcases hactive with hactive | hactive | hnone | hplace
        · exact Or.inl hactive
        · rw [hactive]
          exact h.idle e t htimer'
        · rw [htimer, htimer'] at hnone
          cases hnone
        · exact Or.inr hplace
      · rw [Function.update_of_ne he]
        exact h.idle e' t htimer' }

theorem unlink_timer (s : TimerSystem) (e t : ℕ) : ((s.seTimerUnlink e t).event e).timer = none := by
  change (Function.update s.event e _ e).timer = none
  rw [Function.update_self]

theorem unlink_se (s : TimerSystem) (e t : ℕ) : ((s.seTimerUnlink e t).timer t).se = none := by
  change (Function.update s.timer t _ t).se = none
  rw [Function.update_self]

/-- `seTimerUnlink` on an event and the timer that it has, or has had. -/
theorem TimerLinks.unlink (h : TimerLinks s) (hevent : (s.timer t).event = e)
    (htimer : (s.event e).timer = none ∨ (s.event e).timer = some t)
    (hplace : ∀ k p, s.slock k = some p → p.event = e → p.links = none) : TimerLinks (s.seTimerUnlink e t) := by
  have hse : ∀ t' e', ((s.seTimerUnlink e t).timer t').se = some e' ↔ t' ≠ t ∧ (s.timer t').se = some e' := by
    intro t' e'
    change (Function.update s.timer t _ t').se = _ ↔ _
    by_cases ht : t' = t
    · rw [ht, Function.update_self]
      simp
    · rw [Function.update_of_ne ht]
      simp [ht]
  have hlink : ∀ e' t', ((s.seTimerUnlink e t).event e').timer = some t' ↔ e' ≠ e ∧ (s.event e').timer = some t' := by
    intro e' t'
    change (Function.update s.event e _ e').timer = _ ↔ _
    by_cases he : e' = e
    · rw [he, Function.update_self]
      simp
    · rw [Function.update_of_ne he]
      simp [he]
  have hkeep : ∀ {α : Type} (f : SeTimer → α), f { s.timer t with se := none } = f (s.timer t) → ∀ t',
      f ((s.seTimerUnlink e t).timer t') = f (s.timer t') := fun f hf => timer_setTimer s t f hf
  have hnone : ∀ e', (s.event e').timer = none → ((s.seTimerUnlink e t).event e').timer = none := by
    intro e' he'
    rw [Option.eq_none_iff_forall_ne_some]
    intro t' ht'
    have hsome := ((hlink e' t').mp ht').2
    rw [he'] at hsome
    cases hsome
  exact { h with
    frees := fun t' => by
      rw [hkeep SeTimer.frees rfl]
      exact h.frees t'
    due := fun t' => by
      rw [hkeep SeTimer.armed rfl, hkeep SeTimer.fired rfl]
      exact h.due t'
    sync := fun t' e' => by
      rw [hse, hlink, h.sync]
      constructor
      · rintro ⟨ht, htimer'⟩
        refine ⟨?_, htimer'⟩
        rintro rfl
        rw [htimer'] at htimer
        simp [ht] at htimer
      · rintro ⟨he, htimer'⟩
        refine ⟨?_, htimer'⟩
        rintro rfl
        exact he ((h.made t' e' ((h.sync t' e').mpr htimer')).1.symm.trans hevent)
    made := fun t' e' hse' => by
      obtain ⟨_, hse''⟩ := (hse t' e').mp hse'
      rw [hkeep SeTimer.event rfl, hkeep SeTimer.sub rfl]
      exact ⟨(h.made t' e' hse'').1, (h.made t' e' hse'').2.trans
        (event_setEvent s e (v := { s.event e with timer := none }) TimedSocketEvent.sub rfl e').symm⟩
    alive := fun t' e' hse' => by
      rw [hkeep SeTimer.frees rfl]
      exact h.alive t' e' ((hse t' e').mp hse').2
    done := fun t' e' hse' => h.done t' e' ((hse t' e').mp hse').2
    owned := fun k p t' hp howns => (hkeep SeTimer.event rfl t').trans (h.owned k p t' hp howns)
    links := fun k p t' hp hplinks => by
      have hlinks := h.links k p t' hp hplinks
      have he : p.event ≠ e := by
        intro he
        rw [hplace k p hp he] at hplinks
        cases hplinks
      exact (congrArg TimedSocketEvent.timer (Function.update_of_ne he _ _)).trans hlinks
    killing := fun k e' t' hp => by
      obtain ⟨hevent', htimer', hlt, hfrees⟩ := h.killing k e' t' hp
      rw [hkeep SeTimer.event rfl, hkeep SeTimer.frees rfl]
      refine ⟨hevent', ?_, hlt, hfrees⟩
      rcases htimer' with htimer' | htimer'
      · exact Or.inl (hnone e' htimer')
      · by_cases he : e' = e
        · rw [he]
          exact Or.inl (unlink_timer s e t)
        · exact Or.inr ((hlink e' t').mpr ⟨he, htimer'⟩)
    killed := fun k e' t' hp => by
      obtain ⟨htimer', hse'⟩ := h.killed k e' t' hp
      refine ⟨hnone e' htimer', fun t'' ht'' => ?_⟩
      rw [Option.eq_none_iff_forall_ne_some]
      intro e'' he''
      have hsome := ((hse t'' e'').mp he'').2
      rw [hse' t'' ht''] at hsome
      cases hsome
    idle := fun e' t' htimer' => by
      have hactive := h.idle e' t' ((hlink e' t').mp htimer').2
      rw [← event_setEvent s e (v := { s.event e with timer := none }) TimedSocketEvent.active rfl e'] at hactive
      exact hactive }

/-- A timer runs, or is not run any more. -/
theorem TimerLinks.setTimer (h : TimerLinks s) {v : SeTimer} (hse : v.se = (s.timer t).se)
    (hevent : v.event = (s.timer t).event) (hsub : v.sub = (s.timer t).sub) (hfrees : v.frees = (s.timer t).frees)
    (hdue : v.armed = true → v.fired = false) : TimerLinks (s.setTimer t v) := by
  have hse' := timer_setTimer s t SeTimer.se hse
  have hevent' := timer_setTimer s t SeTimer.event hevent
  have hfrees' := timer_setTimer s t SeTimer.frees hfrees
  exact { h with
    frees := fun t' => by
      rw [hfrees']
      exact h.frees t'
    due := fun t' => by
      change (Function.update s.timer t v t').armed = true → (Function.update s.timer t v t').fired = false
      by_cases ht : t' = t
      · rw [ht, Function.update_self]
        exact hdue
      · rw [Function.update_of_ne ht]
        exact h.due t'
    sync := fun t' e' => by
      rw [hse']
      exact h.sync t' e'
    made := fun t' e' hlinked => by
      rw [hse'] at hlinked
      rw [hevent', timer_setTimer s t SeTimer.sub hsub]
      exact h.made t' e' hlinked
    alive := fun t' e' hlinked => by
      rw [hse'] at hlinked
      rw [hfrees']
      exact h.alive t' e' hlinked
    done := fun t' e' hlinked => by
      rw [hse'] at hlinked
      exact h.done t' e' hlinked
    owned := fun k p t' hp howns => (hevent' t').trans (h.owned k p t' hp howns)
    killing := fun k e' t' hp => by
      rw [hevent', hfrees']
      exact h.killing k e' t' hp
    killed := fun k e' t' hp => ⟨(h.killed k e' t' hp).1, fun t'' ht'' =>
      (hse' t'').trans ((h.killed k e' t' hp).2 t'' ht'')⟩ }

/-- `seTimerFree` on a timer that is not linked, and that `TimerKill` is not about to lock. -/
theorem TimerLinks.seTimerFree (h : TimerLinks s) (hfrees : (s.timer t).frees = 0) (hse : (s.timer t).se = none)
    (hkilling : ∀ k e, s.slock k ≠ some (.killing e t)) : TimerLinks (s.seTimerFree t) := by
  have huse : s.seTimerFree t = s.setTimer t { s.timer t with se := none, frees := (s.timer t).frees + 1 } := by
    unfold TimerSystem.seTimerFree TimerSystem.use
    rw [hfrees]
    simp [TimerSystem.setTimer]
  have hself : (s.setTimer t { s.timer t with se := none, frees := (s.timer t).frees + 1 }).timer t =
      { s.timer t with se := none, frees := (s.timer t).frees + 1 } := Function.update_self _ _ _
  have hother : ∀ t', t' ≠ t → (s.setTimer t { s.timer t with se := none, frees := (s.timer t).frees + 1 }).timer t' =
      s.timer t' := fun t' ht => Function.update_of_ne ht _ _
  have hse' := timer_setTimer s t (v := { s.timer t with se := none, frees := (s.timer t).frees + 1 }) SeTimer.se hse.symm
  have hevent' := timer_setTimer s t (v := { s.timer t with se := none, frees := (s.timer t).frees + 1 })
    SeTimer.event rfl
  have hne : ∀ t' e', (s.timer t').se = some e' → t' ≠ t := by
    rintro t' e' hlinked rfl
    rw [hse] at hlinked
    cases hlinked
  rw [huse]
  exact { h with
    frees := fun t' => by
      by_cases ht : t' = t
      · have hone := congrArg SeTimer.frees hself
        rw [ht]
        exact Nat.le_of_eq (hone.trans (congrArg (· + 1) hfrees))
      · rw [hother t' ht]
        exact h.frees t'
    due := fun t' => by
      by_cases ht : t' = t
      · rw [ht, hself]
        exact h.due t
      · rw [hother t' ht]
        exact h.due t'
    sync := fun t' e' => by
      rw [hse']
      exact h.sync t' e'
    made := fun t' e' hlinked => by
      rw [hse'] at hlinked
      rw [hother t' (hne t' e' hlinked)]
      exact h.made t' e' hlinked
    alive := fun t' e' hlinked => by
      rw [hse'] at hlinked
      rw [hother t' (hne t' e' hlinked)]
      exact h.alive t' e' hlinked
    done := fun t' e' hlinked => by
      rw [hse'] at hlinked
      exact h.done t' e' hlinked
    owned := fun k p t' hp howns => (hevent' t').trans (h.owned k p t' hp howns)
    killing := fun k e' t' hp => by
      have ht : t' ≠ t := by
        rintro rfl
        exact hkilling k e' hp
      rw [hother t' ht]
      exact h.killing k e' t' hp
    killed := fun k e' t' hp => ⟨(h.killed k e' t' hp).1, fun t'' ht'' =>
      (hse' t'').trans ((h.killed k e' t' hp).2 t'' ht'')⟩ }

/-- The timer thread goes on. -/
theorem TimerLinks.setThread (h : TimerLinks s) {queue chain : List ℕ} {thread : TimerPlace} (hqueue : queue.Nodup)
    (hchain : chain.Nodup) (hrests : chain = [] ∨ thread = .starting ∨ ∃ t, thread = .rejected t)
    (hdone : ∀ t e, (s.timer t).se = some e → thread ≠ .rejected t ∧ thread ≠ .called t) :
    TimerLinks { s with queue := queue, chain := chain, thread := thread } :=
  { h with
    queue := hqueue
    chain := hchain
    rests := hrests
    done := hdone }

/-- `eventTimeout` -/
theorem TimerLinks.eventTimeout (h : TimerLinks s) (htimer : (s.event e).timer = none) :
    TimerLinks (s.eventTimeout e) := by
  unfold TimerSystem.eventTimeout
  split
  · exact h.setEvent htimer.symm (Or.inr rfl) (Or.inr (Or.inr (Or.inl rfl)))
  · exact h

/-- What `timerCallback` and `timerStart` do with the event of a timer. -/
theorem TimerLinks.expire (h : TimerLinks s) (howner : ∀ k, s.owner k ≠ some t) : TimerLinks (s.expire t) := by
  unfold TimerSystem.expire
  split
  next e hse =>
    have htimer : (s.event e).timer = some t := (h.sync t e).mp hse
    refine TimerLinks.eventTimeout ?_ (unlink_timer s e t)
    refine h.unlink (h.made t e hse).1 (Or.inr htimer) fun k p hp hpe => ?_
    cases hplinks : p.links with
    | none => rfl
    | some t' =>
      have hlinks := h.links k p t' hp hplinks
      rw [hpe, htimer] at hlinks
      refine absurd ?_ (howner k)
      unfold TimerSystem.owner
      rw [hp, Option.bind_some]
      cases p <;> first | (cases hplinks; exact hlinks.symm) | cases hplinks
  · exact h

theorem eventTimeout_frame (s : TimerSystem) (e : ℕ) :
    s.eventTimeout e = { s with event := (s.eventTimeout e).event } := by
  unfold TimerSystem.eventTimeout
  split <;> rfl

/-- What changes when a timer times its event out. -/
theorem expire_frame (s : TimerSystem) (t : ℕ) :
    s.expire t = { s with timer := (s.expire t).timer, event := (s.expire t).event } := by
  unfold TimerSystem.expire
  split
  · rw [eventTimeout_frame]
    rfl
  · rfl

theorem expire_timer {α : Type} (s : TimerSystem) (t : ℕ) (f : SeTimer → α)
    (hf : f { s.timer t with se := none } = f (s.timer t)) (t' : ℕ) : f ((s.expire t).timer t') = f (s.timer t') := by
  unfold TimerSystem.expire
  split
  · rw [eventTimeout_frame]
    exact timer_setTimer s t f hf t'
  · rfl

theorem eventTimeout_pos {s : TimerSystem} {e : ℕ} (h : (s.event e).active = true ∧ s.type e ≠ .disconnect) :
    s.eventTimeout e = s.setEvent e { s.event e with timer := none, timedout := true } := if_pos h

theorem eventTimeout_neg {s : TimerSystem} {e : ℕ} (h : ¬ ((s.event e).active = true ∧ s.type e ≠ .disconnect)) :
    s.eventTimeout e = s := if_neg h

theorem eventTimeout_chain (s : TimerSystem) (e : ℕ) (chain : List ℕ) :
    ({ s with chain := chain } : TimerSystem).eventTimeout e = { s.eventTimeout e with chain := chain } := by
  by_cases hactive : (s.event e).active = true ∧ s.type e ≠ .disconnect
  · rw [eventTimeout_pos hactive]
    exact eventTimeout_pos hactive
  · rw [eventTimeout_neg hactive]
    exact eventTimeout_neg hactive

theorem expire_chain (s : TimerSystem) (t : ℕ) (chain : List ℕ) :
    ({ s with chain := chain } : TimerSystem).expire t = { s.expire t with chain := chain } := by
  unfold TimerSystem.expire
  cases hse : (s.timer t).se with
  | none => rfl
  | some e => exact eventTimeout_chain (s.seTimerUnlink e t) e chain

theorem expire_se (s : TimerSystem) (t : ℕ) : ((s.expire t).timer t).se = none := by
  unfold TimerSystem.expire
  split
  next e _ =>
    rw [eventTimeout_frame]
    exact unlink_se s e t
  next hse => exact hse

theorem TimerInv.role_unique (h : TimerInv s) (r q : TimerRole) (hr : s.At t r) (hq : s.At t q) : r = q :=
  (h.once t).unique hr hq

/-- A timer that is not freed may be used. -/
theorem TimerInv.unfreed (h : TimerInv s) {r : TimerRole} (hr : s.At t r) (hne : r ≠ .freed) :
    (s.timer t).frees = 0 := by
  have hle := h.frees t
  have hfreed : (s.timer t).frees ≠ 1 := fun heq => hne (h.role_unique r .freed hr heq)
  omega

theorem use_eq (hfrees : (s.timer t).frees = 0) : s.use t = s := by
  unfold TimerSystem.use
  rw [hfrees]
  simp

/-- The timer that is allocated next is not linked. -/
theorem TimerInv.fresh_se (h : TimerInv s) : (s.timer s.allocated).se = none := by
  rw [Option.eq_none_iff_forall_ne_some]
  intro e' hse
  exact absurd (h.alive s.allocated e' hse).1 (Nat.lt_irrefl _)

/-- No thread has the timer that is allocated next. -/
theorem TimerInv.fresh_owner (h : TimerInv s) {k : ℕ} {p : SlockPlace} (hp : s.slock k = some p) :
    p.owns ≠ some s.allocated := by
  intro howns
  have howner : s.owner k = some s.allocated := by
    unfold TimerSystem.owner
    rw [hp]
    exact howns
  have hborn := h.role_unique (t := s.allocated) .unborn (.holder k) (Nat.le_refl _) howner
  cases hborn

/-- A timer is allocated for an event that is active, and freed. -/
theorem TimerInv.allocFreed (h : TimerInv s) :
    TimerLinks ({ s with allocated := s.allocated + 1 }.setTimer s.allocated { frees := 1 }) := by
  have hse := timer_setTimer { s with allocated := s.allocated + 1 } s.allocated (v := { frees := 1 }) SeTimer.se
    h.fresh_se.symm
  have hself : ({ s with allocated := s.allocated + 1 }.setTimer s.allocated { frees := 1 }).timer s.allocated =
      { frees := 1 } := Function.update_self _ _ _
  have hother : ∀ t', t' ≠ s.allocated →
      ({ s with allocated := s.allocated + 1 }.setTimer s.allocated { frees := 1 }).timer t' = s.timer t' :=
    fun t' ht => Function.update_of_ne ht _ _
  have hne : ∀ t' e', (s.timer t').se = some e' → t' ≠ s.allocated := by
    rintro t' e' hlinked rfl
    rw [h.fresh_se] at hlinked
    cases hlinked
  exact { h.toTimerLinks with
    frees := fun t' => by
      by_cases ht : t' = s.allocated
      · rw [ht]
        exact Nat.le_of_eq (congrArg SeTimer.frees hself)
      · rw [hother t' ht]
        exact h.frees t'
    due := fun t' => by
      by_cases ht : t' = s.allocated
      · rw [ht, hself]
        exact fun _ => rfl
      · rw [hother t' ht]
        exact h.due t'
    sync := fun t' e' => by
      rw [hse]
      exact h.sync t' e'
    made := fun t' e' hlinked => by
      rw [hse] at hlinked
      rw [hother t' (hne t' e' hlinked)]
      exact h.made t' e' hlinked
    alive := fun t' e' hlinked => by
      rw [hse] at hlinked
      rw [hother t' (hne t' e' hlinked)]
      exact ⟨Nat.lt_succ_of_lt (h.alive t' e' hlinked).1, (h.alive t' e' hlinked).2⟩
    done := fun t' e' hlinked => by
      rw [hse] at hlinked
      exact h.done t' e' hlinked
    owned := fun k p t' hp howns => by
      have ht : t' ≠ s.allocated := by
        rintro rfl
        exact h.fresh_owner hp howns
      rw [hother t' ht]
      exact h.owned k p t' hp howns
    killing := fun k e' t' hp => by
      obtain ⟨hevent, htimer, hlt, hfrees⟩ := h.killing k e' t' hp
      rw [hother t' (Nat.ne_of_lt hlt)]
      exact ⟨hevent, htimer, Nat.lt_succ_of_lt hlt, hfrees⟩
    killed := fun k e' t' hp => ⟨(h.killed k e' t' hp).1, fun t'' ht'' =>
      (hse t'').trans ((h.killed k e' t' hp).2 t'' ht'')⟩ }

/-- A timer is allocated for an event that is going to be submitted. -/
theorem TimerInv.seTimerLink (h : TimerInv s) (hslock : s.slock (s.cs e) = some (.entered e))
    (hnone : (s.event e).timer = none) :
    TimerLinks ((s.seTimerLink e).place e (some (.linked e (some s.allocated)))) := by
  have hself : (s.seTimerLink e).timer s.allocated = { se := some e, event := e, sub := (s.event e).sub + 1 } :=
    Function.update_self _ _ _
  have hother : ∀ t', t' ≠ s.allocated → (s.seTimerLink e).timer t' = s.timer t' :=
    fun t' ht => Function.update_of_ne ht _ _
  have hselfe : (s.seTimerLink e).event e =
      { s.event e with timer := some s.allocated, sub := (s.event e).sub + 1 } := Function.update_self _ _ _
  have hothere : ∀ e', e' ≠ e → (s.seTimerLink e).event e' = s.event e' :=
    fun e' he => Function.update_of_ne he _ _
  have hcases : ∀ t' e', ((s.seTimerLink e).timer t').se = some e' →
      t' = s.allocated ∧ e' = e ∨ t' ≠ s.allocated ∧ e' ≠ e ∧ (s.timer t').se = some e' := by
    intro t' e' hse
    by_cases ht : t' = s.allocated
    · rw [ht, hself] at hse
      exact Or.inl ⟨ht, (Option.some.inj hse).symm⟩
    · rw [hother t' ht] at hse
      refine Or.inr ⟨ht, ?_, hse⟩
      rintro rfl
      rw [(h.sync t' e').mp hse] at hnone
      cases hnone
  have hevent : ∀ k p, s.slock k = some p → k ≠ s.cs e → p.event ≠ e := by
    rintro k p hp hk rfl
    exact hk (h.places k p hp).symm
  exact { h.toTimerLinks with
    frees := fun t' => by
      change ((s.seTimerLink e).timer t').frees ≤ 1
      by_cases ht : t' = s.allocated
      · rw [ht, hself]
        exact Nat.zero_le 1
      · rw [hother t' ht]
        exact h.frees t'
    due := fun t' => by
      change ((s.seTimerLink e).timer t').armed = true → ((s.seTimerLink e).timer t').fired = false
      by_cases ht : t' = s.allocated
      · rw [ht, hself]
        exact fun _ => rfl
      · rw [hother t' ht]
        exact h.due t'
    sync := fun t' e' => by
      change ((s.seTimerLink e).timer t').se = some e' ↔ ((s.seTimerLink e).event e').timer = some t'
      constructor
      · intro hse
        rcases hcases t' e' hse with ⟨rfl, rfl⟩ | ⟨_, he, hse'⟩
        · rw [hselfe]
        · rw [hothere e' he]
          exact (h.sync t' e').mp hse'
      · intro htimer
        by_cases he : e' = e
        · rw [he, hselfe] at htimer
          obtain rfl : s.allocated = t' := Option.some.inj htimer
          rw [he, hself]
        · rw [hothere e' he] at htimer
          have hse := (h.sync t' e').mpr htimer
          rw [hother t' (Nat.ne_of_lt (h.alive t' e' hse).1)]
          exact hse
    made := fun t' e' hse => by
      change ((s.seTimerLink e).timer t').event = e' ∧
        ((s.seTimerLink e).timer t').sub = ((s.seTimerLink e).event e').sub
      rcases hcases t' e' hse with ⟨rfl, rfl⟩ | ⟨ht, he, hse'⟩
      · rw [hself, hselfe]
        exact ⟨rfl, rfl⟩
      · rw [hother t' ht, hothere e' he]
        exact h.made t' e' hse'
    alive := fun t' e' hse => by
      change t' < s.allocated + 1 ∧ ((s.seTimerLink e).timer t').frees = 0
      rcases hcases t' e' hse with ⟨rfl, rfl⟩ | ⟨ht, he, hse'⟩
      · rw [hself]
        exact ⟨Nat.lt_succ_self _, rfl⟩
      · rw [hother t' ht]
        exact ⟨Nat.lt_succ_of_lt (h.alive t' e' hse').1, (h.alive t' e' hse').2⟩
    done := fun t' e' hse => by
      rcases hcases t' e' hse with ⟨rfl, rfl⟩ | ⟨ht, he, hse'⟩
      · constructor
        all_goals
          intro hthread
          have hrole := h.role_unique (t := s.allocated) .unborn .thread (Nat.le_refl _)
            (congrArg TimerPlace.timer hthread)
          cases hrole
      · exact h.done t' e' hse'
    places := fun k p hp => by
      rcases slock_place (s.seTimerLink e) e _ hp with ⟨hk, hp'⟩ | ⟨_, hp'⟩
      · cases hp'
        exact hk.symm
      · exact h.places k p hp'
    owned := fun k p t' hp howns => by
      change ((s.seTimerLink e).timer t').event = p.event
      rcases slock_place (s.seTimerLink e) e _ hp with ⟨_, hp'⟩ | ⟨_, hp'⟩
      · cases hp'
        cases howns
        rw [hself]
        rfl
      · have ht : t' ≠ s.allocated := by
          rintro rfl
          exact h.fresh_owner hp' howns
        rw [hother t' ht]
        exact h.owned k p t' hp' howns
    links := fun k p t' hp hplinks => by
      change ((s.seTimerLink e).event p.event).timer = t'
      rcases slock_place (s.seTimerLink e) e _ hp with ⟨_, hp'⟩ | ⟨hk, hp'⟩
      · cases hp'
        cases hplinks
        change ((s.seTimerLink e).event e).timer = some s.allocated
        rw [hselfe]
      · rw [hothere _ (hevent k p hp' hk)]
        exact h.links k p t' hp' hplinks
    killing := fun k e' t' hp => by
      rcases slock_place (s.seTimerLink e) e _ hp with ⟨_, hp'⟩ | ⟨hk, hp'⟩
      · cases hp'
      · obtain ⟨hevent', htimer, hlt, hfrees⟩ := h.killing k e' t' hp'
        change ((s.seTimerLink e).timer t').event = e' ∧ (((s.seTimerLink e).event e').timer = none ∨
          ((s.seTimerLink e).event e').timer = some t') ∧ t' < s.allocated + 1 ∧
          ((s.seTimerLink e).timer t').frees = 0
        rw [hother t' (Nat.ne_of_lt hlt), hothere e' (hevent k _ hp' hk)]
        exact ⟨hevent', htimer, Nat.lt_succ_of_lt hlt, hfrees⟩
    killed := fun k e' t' hp => by
      rcases slock_place (s.seTimerLink e) e _ hp with ⟨_, hp'⟩ | ⟨hk, hp'⟩
      · cases hp'
      · obtain ⟨htimer, hse⟩ := h.killed k e' t' hp'
        change ((s.seTimerLink e).event e').timer = none ∧ ∀ t'', t' = some t'' → ((s.seTimerLink e).timer t'').se = none
        rw [hothere e' (hevent k _ hp' hk)]
        refine ⟨htimer, fun t'' ht'' => ?_⟩
        have ht : t'' ≠ s.allocated := by
          rintro rfl
          exact h.fresh_owner hp' ht''
        rw [hother t'' ht]
        exact hse t'' ht''
    idle := fun e' t' htimer => by
      change ((s.seTimerLink e).event e').active = true ∨ ∃ p, Function.update s.slock (s.cs e) _ (s.cs e') = some p ∧ _
      by_cases he : e' = e
      · rw [he]
        exact Or.inr ⟨_, Function.update_self _ _ _, rfl, rfl⟩
      · change ((s.seTimerLink e).event e').timer = some t' at htimer
        rw [hothere e' he] at htimer ⊢
        rcases h.idle e' t' htimer with hactive | ⟨p, hp, hpevent, hbetween⟩
        · exact Or.inl hactive
        · refine Or.inr ⟨p, ?_, hpevent, hbetween⟩
          have hk : s.cs e' ≠ s.cs e := by
            intro hk
            rw [hk, hslock] at hp
            cases hp
            exact he hpevent.symm
          exact (Function.update_of_ne hk _ _).trans hp }

end Links

end Connio
