import Connio.EventTimersLinks

/-!
# Each timer is going to be freed once

The invariant of `EventTimers` under the steps of each thread.

* `at_congr`, `TimerInv.become`, `TimerInv.give` — **PROVED**: a timer keeps its role, changes it, or is given up;
* `TimerInv.alloc` … `TimerInv.finish` — **PROVED**: the steps of the thread that has an `slock`;
* `TimerInv.pull` … `TimerInv.call` — **PROVED**: the steps of the timer thread.
-/

namespace Connio

/-! ### The roles of a timer -/

section Roles

variable {s s' : TimerSystem} {e t : ℕ}

/-- A timer keeps its role. -/
theorem at_congr (s s' : TimerSystem) (hallocated : s'.allocated ≤ t ↔ s.allocated ≤ t)
    (howner : ∀ k, s'.owner k = some t ↔ s.owner k = some t) (hqueue : t ∈ s'.queue ↔ t ∈ s.queue)
    (hchain : t ∈ s'.chain ↔ t ∈ s.chain) (harmed : (s'.timer t).armed = (s.timer t).armed)
    (hfired : (s'.timer t).fired = (s.timer t).fired) (hthread : s'.thread.timer = some t ↔ s.thread.timer = some t)
    (hfrees : (s'.timer t).frees = (s.timer t).frees) (r : TimerRole) : s'.At t r ↔ s.At t r := by
  cases r with
  | unborn => exact hallocated
  | holder k => exact howner k
  | queued => exact hqueue
  | pulled => exact hchain
  | running =>
    change (s'.timer t).armed = true ∨ (s'.timer t).fired = true ↔ _
    rw [harmed, hfired]
    exact Iff.rfl
  | thread => exact hthread
  | freed =>
    change (s'.timer t).frees = 1 ↔ _
    rw [hfrees]
    exact Iff.rfl

theorem TimerInv.keep (h : TimerInv s) (hlinks : TimerLinks s') (hat : ∀ t r, s'.At t r ↔ s.At t r) : TimerInv s' :=
  { hlinks with
    once := fun t => by
      simp only [hat]
      exact h.once t }

/-- One timer changes its role. -/
theorem TimerInv.become (h : TimerInv s) (hlinks : TimerLinks s') (t : ℕ) (r r' : TimerRole) (hr : s.At t r)
    (hother : ∀ t', t' ≠ t → ∀ q, s'.At t' q ↔ s.At t' q) (hold : ¬ s'.At t r)
    (hrest : ∀ q, q ≠ r → q ≠ r' → s'.At t q → s.At t q) (hnew : s'.At t r') : TimerInv s' :=
  { hlinks with
    once := fun t' => by
      by_cases ht : t' = t
      · rw [ht]
        refine ⟨r', hnew, fun q hq => ?_⟩
        by_contra hne
        have hqr : q ≠ r := by
          rintro rfl
          exact hold hq
        exact hqr (h.role_unique q r (hrest q hqr hne hq) hr)
      · simp only [hother t' ht]
        exact h.once t' }

theorem owner_place (s : TimerSystem) (e : ℕ) (p : Option SlockPlace) (k : ℕ) :
    (s.place e p).owner k = if k = s.cs e then p.bind SlockPlace.owns else s.owner k := by
  unfold TimerSystem.owner TimerSystem.place
  by_cases hk : k = s.cs e
  · rw [if_pos hk, hk]
    simp only [Function.update_self]
  · rw [if_neg hk]
    simp only [Function.update_of_ne hk]

/-- The thread with the `slock` goes on, and has the same timers but one. -/
theorem owner_place_iff {p : Option SlockPlace} (ht : p.bind SlockPlace.owns = some t ↔ s.owner (s.cs e) = some t)
    (k : ℕ) : (s.place e p).owner k = some t ↔ s.owner k = some t := by
  rw [owner_place]
  split
  next hk => rw [ht, hk]
  · exact Iff.rfl

theorem at_place {p : Option SlockPlace} (howner : p.bind SlockPlace.owns = s.owner (s.cs e)) (t : ℕ) (r : TimerRole) :
    (s.place e p).At t r ↔ s.At t r :=
  at_congr s (s.place e p) Iff.rfl (owner_place_iff (by rw [howner])) Iff.rfl Iff.rfl rfl rfl Iff.rfl rfl r

end Roles

/-! ### The thread that has an `slock` -/

/-- Outside of the places where a timer is linked or killed. -/
def SlockPlace.plain : SlockPlace → Bool
  | entered _ | enqueued _ | leaving _ | completing _ => true
  | _ => false

theorem SlockPlace.plain_none {p : SlockPlace} (hp : p.plain = true) : p.owns = none ∧ p.links = none := by
  cases p with
  | linked | submitted | activated | killing | killed => cases hp
  | _ => exact ⟨rfl, rfl⟩

section Slock

variable {s s' : TimerSystem} {e t : ℕ}

theorem TimerLinks.setPlain (h : TimerLinks s) {p' : Option SlockPlace}
    (hold : ∀ p, s.slock (s.cs e) = some p → p.event = e) (hnew : ∀ p, p' = some p → p.event = e ∧ p.plain = true)
    (hidle : ∀ t, (s.event e).timer = some t → (s.event e).active = true ∨ ∃ p, p' = some p ∧ p.between = true) :
    TimerLinks (s.place e p') := by
  refine h.setPlace hold (fun p hp => (hnew p hp).1) (fun p t hp howns => ?_) (fun p t hp hplinks => ?_) (fun t hp => ?_)
    (fun t hp => ?_) hidle
  · rw [(SlockPlace.plain_none (hnew p hp).2).1] at howns
    cases howns
  · rw [(SlockPlace.plain_none (hnew p hp).2).2] at hplinks
    cases hplinks
  · cases (hnew _ hp).2
  · cases (hnew _ hp).2

theorem event_of_slock {q : SlockPlace} (hslock : s.slock (s.cs e) = some q) (he : q.event = e) :
    ∀ p, s.slock (s.cs e) = some p → p.event = e := by
  intro p hp
  rw [hslock] at hp
  obtain rfl : q = p := Option.some.inj hp
  exact he

theorem owner_of_slock {p : SlockPlace} (hslock : s.slock (s.cs e) = some p) : s.owner (s.cs e) = p.owns := by
  unfold TimerSystem.owner
  rw [hslock, Option.bind_some]

/-- The timer of an event, when the thread with the `slock` is not between. -/
theorem TimerLinks.active_of_timer (h : TimerLinks s) {q : Option SlockPlace} (hslock : s.slock (s.cs e) = q)
    (hbetween : ∀ p, q = some p → p.between = false) (ht : (s.event e).timer = some t) : (s.event e).active = true := by
  rcases h.idle e t ht with hactive | ⟨p, hp, _, hpb⟩
  · exact hactive
  · rw [hbetween p (hslock.symm.trans hp)] at hpb
    cases hpb

/-- The timer of an event that is not active. -/
theorem TimerLinks.timer_eq_none (h : TimerLinks s) {q : Option SlockPlace} (hslock : s.slock (s.cs e) = q)
    (hbetween : ∀ p, q = some p → p.between = false) (hactive : ¬ (s.event e).active = true) :
    (s.event e).timer = none := by
  rw [Option.eq_none_iff_forall_ne_some]
  intro t ht
  exact hactive (h.active_of_timer hslock hbetween ht)

theorem TimerInv.enter (h : TimerInv s) (hslock : s.slock (s.cs e) = none) :
    TimerInv (s.place e (some (.entered e))) := by
  refine h.keep (h.setPlain ?_ ?_ ?_) (at_place ?_)
  · intro p hp
    rw [hslock] at hp
    cases hp
  · intro p hp
    obtain rfl := Option.some.inj hp
    exact ⟨rfl, rfl⟩
  · exact fun t ht => Or.inl (h.active_of_timer hslock (fun p hp => by cases hp) ht)
  · unfold TimerSystem.owner
    rw [hslock]
    rfl

/-- The thread goes on to a place where it has no timer. -/
theorem TimerInv.toPlain (h : TimerInv s) {q : SlockPlace} {p' : Option SlockPlace}
    (hslock : s.slock (s.cs e) = some q) (he : q.event = e) (howns : q.owns = none)
    (hnew : ∀ p, p' = some p → p.event = e ∧ p.plain = true)
    (hidle : ∀ t, (s.event e).timer = some t → (s.event e).active = true ∨ ∃ p, p' = some p ∧ p.between = true) :
    TimerInv (s.place e p') := by
  refine h.keep (h.setPlain (event_of_slock hslock he) hnew hidle) (at_place ?_)
  rw [owner_of_slock hslock, howns]
  cases p' with
  | none => rfl
  | some p => exact (SlockPlace.plain_none (hnew p rfl).2).1

theorem TimerInv.setEvent (h : TimerInv s) {v : TimedSocketEvent} (htimer : v.timer = (s.event e).timer)
    (hsub : v.sub = (s.event e).sub ∨ v.timer = none) (hactive : v.active = true ∨ v.active = (s.event e).active ∨
      v.timer = none ∨ ∃ p, s.slock (s.cs e) = some p ∧ p.event = e ∧ p.between = true) :
    TimerInv (s.setEvent e v) :=
  h.keep (h.toTimerLinks.setEvent htimer hsub hactive) fun _ _ => Iff.rfl

theorem leaving_plain (p : SlockPlace) (hp : some (SlockPlace.leaving e) = some p) : p.event = e ∧ p.plain = true := by
  obtain rfl := Option.some.inj hp
  exact ⟨rfl, rfl⟩

theorem none_plain (p : SlockPlace) (hp : none = some p) : p.event = e ∧ p.plain = true := by
  cases hp

/-- A timer is allocated for an event that is active, and freed. -/
theorem TimerInv.freed (h : TimerInv s) :
    TimerInv ({ s with allocated := s.allocated + 1 }.setTimer s.allocated { frees := 1 }) := by
  have hself : ({ s with allocated := s.allocated + 1 }.setTimer s.allocated { frees := 1 }).timer s.allocated =
      { frees := 1 } := Function.update_self _ _ _
  refine h.become h.allocFreed s.allocated .unborn .freed (Nat.le_refl _) ?_ ?_ ?_ ?_
  · intro t' ht q
    have htimer : ({ s with allocated := s.allocated + 1 }.setTimer s.allocated { frees := 1 }).timer t' = s.timer t' :=
      Function.update_of_ne ht _ _
    refine at_congr s ({ s with allocated := s.allocated + 1 }.setTimer s.allocated { frees := 1 }) ?_ (fun k => Iff.rfl)
      Iff.rfl Iff.rfl ?_ ?_ Iff.rfl ?_ q
    · change s.allocated + 1 ≤ t' ↔ s.allocated ≤ t'
      omega
    all_goals rw [htimer]
  · change ¬ s.allocated + 1 ≤ s.allocated
    omega
  · intro q hunborn hfreed hq
    cases q with
    | unborn => exact absurd rfl hunborn
    | freed => exact absurd rfl hfreed
    | running =>
      change _ ∨ _ at hq
      rw [hself] at hq
      simp at hq
    | _ => exact hq
  · change SeTimer.frees _ = 1
    rw [hself]

/-- A timer is allocated for an event that is going to be submitted. -/
theorem TimerInv.linked (h : TimerInv s) (hslock : s.slock (s.cs e) = some (.entered e))
    (hnone : (s.event e).timer = none) :
    TimerInv ((s.seTimerLink e).place e (some (.linked e (some s.allocated)))) := by
  have hself : ((s.seTimerLink e).place e (some (.linked e (some s.allocated)))).timer s.allocated =
      { se := some e, event := e, sub := (s.event e).sub + 1 } := Function.update_self _ _ _
  have howner := owner_place (s.seTimerLink e) e (some (.linked e (some s.allocated)))
  have hfresh : s.owner (s.cs e) = none := owner_of_slock hslock
  refine h.become (h.seTimerLink hslock hnone) s.allocated .unborn (.holder (s.cs e)) (Nat.le_refl _)
    ?_ ?_ ?_ ?_
  · intro t' ht q
    have htimer : ((s.seTimerLink e).place e (some (.linked e (some s.allocated)))).timer t' = s.timer t' :=
      Function.update_of_ne ht _ _
    refine at_congr s ((s.seTimerLink e).place e (some (.linked e (some s.allocated)))) ?_ (fun k => ?_) Iff.rfl Iff.rfl
      ?_ ?_ Iff.rfl ?_ q
    · change s.allocated + 1 ≤ t' ↔ s.allocated ≤ t'
      omega
    · refine owner_place_iff (s := s.seTimerLink e) ⟨fun hp => ?_, fun hp => ?_⟩ k
      · exact absurd (Option.some.inj hp).symm ht
      · cases hfresh.symm.trans hp
    all_goals rw [htimer]
  · change ¬ s.allocated + 1 ≤ s.allocated
    omega
  · intro q hunborn hholder hq
    cases q with
    | unborn => exact absurd rfl hunborn
    | holder k =>
      change TimerSystem.owner _ k = _ at hq
      rw [howner] at hq
      split at hq
      next hk => exact absurd (congrArg TimerRole.holder hk) hholder
      · exact hq
    | running =>
      change _ ∨ _ at hq
      rw [hself] at hq
      simp at hq
    | freed =>
      change SeTimer.frees _ = 1 at hq
      rw [hself] at hq
      cases hq
    | _ => exact hq
  · exact (howner _).trans (if_pos rfl)

/-- `sockEventAdd` up to the submission -/
theorem TimerInv.alloc (h : TimerInv s) {answer : TimerAnswer} (hstep : timerStep s (.alloc e answer) = some s') :
    TimerInv s' := by
  simp only [timerStep] at hstep
  split at hstep
  next hslock =>
    have hreset : TimerInv (s.setEvent e { s.event e with timedout := false, error := 0 }) :=
      h.setEvent rfl (Or.inl rfl) (Or.inr (Or.inl rfl))
    replace hslock : (s.setEvent e { s.event e with timedout := false, error := 0 }).slock
      ((s.setEvent e { s.event e with timedout := false, error := 0 }).cs e) = some (.entered e) := hslock
    generalize s.setEvent e { s.event e with timedout := false, error := 0 } = s₁ at hstep hreset hslock
    have hbetween : ∀ p, some (SlockPlace.entered e) = some p → p.between = false := by
      intro p hp
      obtain rfl := Option.some.inj hp
      rfl
    have hleave : ∀ t, (s₁.event e).timer = some t → (s₁.event e).active = true ∨
        ∃ p, some (SlockPlace.leaving e) = some p ∧ p.between = true :=
      fun t ht => Or.inl (hreset.active_of_timer hslock hbetween ht)
    split at hstep
    · split at hstep
      · cases hstep
        exact hreset.freed.toPlain hslock rfl rfl leaving_plain hleave
      · cases hstep
        exact hreset.toPlain hslock rfl rfl leaving_plain hleave
    next hactive =>
      have hnone := hreset.timer_eq_none hslock hbetween hactive
      cases answer with
      | infinite =>
        cases hstep
        have hsub := hreset.setEvent (e := e) (v := { s₁.event e with sub := (s₁.event e).sub + 1 }) rfl (Or.inr hnone)
          (Or.inr (Or.inl rfl))
        have htimer := (event_setEvent s₁ e (v := { s₁.event e with sub := (s₁.event e).sub + 1 })
          TimedSocketEvent.timer rfl e).trans hnone
        refine hsub.keep (hsub.setPlace (event_of_slock hslock rfl) ?_ ?_ ?_ ?_ ?_ ?_)
          (at_place (owner_of_slock (p := .entered e) hslock).symm)
        · rintro p ⟨⟩
          rfl
        · rintro p t ⟨⟩ ⟨⟩
        · rintro p t ⟨⟩ ⟨⟩
          exact htimer
        · rintro t ⟨⟩
        · rintro t ⟨⟩
        · intro t ht
          exact Or.inr ⟨_, rfl, rfl⟩
      | error =>
        cases hstep
        exact hreset.toPlain hslock rfl rfl leaving_plain hleave
      | timer =>
        cases hstep
        exact hreset.linked hslock hnone
  · cases hstep

theorem TimerInv.setClearing (h : TimerInv s) (clearing : List ℕ) : TimerInv { s with clearing := clearing } :=
  h.keep { h.toTimerLinks with } fun _ _ => Iff.rfl

theorem place_place (s : TimerSystem) (e : ℕ) (p p' : Option SlockPlace) : (s.place e p).place e p' = s.place e p' := by
  unfold TimerSystem.place
  simp only [Function.update_idem]

/-- A thread frees or enqueues the timer that it has. -/
theorem TimerInv.give (h : TimerInv s) (hlinks : TimerLinks s') (r : TimerRole) (howner : s.owner (s.cs e) = some t)
    (howner' : ∀ k, s'.owner k = if k = s.cs e then none else s.owner k) (hallocated : s'.allocated = s.allocated)
    (hqueue : ∀ t', t' ≠ t ∨ r ≠ .queued → (t' ∈ s'.queue ↔ t' ∈ s.queue)) (hchain : s'.chain = s.chain)
    (hthread : s'.thread = s.thread) (htimer : ∀ t', t' ≠ t → s'.timer t' = s.timer t')
    (harmed : (s'.timer t).armed = (s.timer t).armed) (hfired : (s'.timer t).fired = (s.timer t).fired)
    (hfrees : r ≠ .freed → (s'.timer t).frees = (s.timer t).frees) (hnew : s'.At t r) : TimerInv s' := by
  refine h.become hlinks t (.holder (s.cs e)) r howner ?_ ?_ ?_ hnew
  · intro t' ht q
    refine at_congr s s' (by rw [hallocated]) (fun k => ?_) (hqueue t' (Or.inl ht)) (by rw [hchain])
      (by rw [htimer t' ht]) (by rw [htimer t' ht]) (by rw [hthread]) (by rw [htimer t' ht]) q
    rw [howner']
    split
    next hk =>
      rw [hk, howner]
      exact ⟨fun hn => (by cases hn), fun heq => absurd (Option.some.inj heq).symm ht⟩
    · exact Iff.rfl
  · change ¬ s'.owner (s.cs e) = some t
    rw [howner', if_pos rfl]
    intro hn
    cases hn
  · intro q hholder hqr hq
    cases q with
    | unborn =>
      change s'.allocated ≤ t at hq
      rw [hallocated] at hq
      exact hq
    | holder k =>
      change s'.owner k = some t at hq
      rw [howner'] at hq
      split at hq
      · cases hq
      · exact hq
    | queued => exact (hqueue t (Or.inr (Ne.symm hqr))).mp hq
    | pulled =>
      change t ∈ s'.chain at hq
      rw [hchain] at hq
      exact hq
    | running =>
      change _ ∨ _ at hq
      rw [harmed, hfired] at hq
      exact hq
    | thread =>
      change s'.thread.timer = some t at hq
      rw [hthread] at hq
      exact hq
    | freed =>
      change (s'.timer t).frees = 1 at hq
      rw [hfrees (Ne.symm hqr)] at hq
      exact hq

/-- A timer that a thread has is not about to be locked by `TimerKill`. -/
theorem TimerLinks.not_killing (h : TimerLinks s) {p : SlockPlace} (hslock : s.slock (s.cs e) = some p)
    (he : p.event = e) (howns : p.owns = some t) (k e' : ℕ) : s.slock k ≠ some (.killing e' t) := by
  intro hk
  have hevent : e = e' := by
    rw [← he, ← h.owned _ p t hslock howns]
    exact (h.killing k e' t hk).1
  have hplace : s.cs e' = k := h.places k _ hk
  rw [← hplace, ← hevent, hslock] at hk
  obtain rfl := Option.some.inj hk
  cases howns

/-- The owner, when a thread goes on without its timer. -/
theorem owner_place_none (s : TimerSystem) {e : ℕ} {p : SlockPlace} (hp : p.owns = none) (k : ℕ) :
    (s.place e (some p)).owner k = if k = s.cs e then none else s.owner k := by
  rw [owner_place, Option.bind_some, hp]

/-- What `seTimerFree` does to a timer. -/
theorem seTimerFree_timer (s : TimerSystem) (t : ℕ) : (s.seTimerFree t).timer t =
    { s.timer t with se := none, frees := (s.timer t).frees + 1 } := Function.update_self _ _ _

theorem seTimerFree_other (s : TimerSystem) (t : ℕ) {t' : ℕ} (ht : t' ≠ t) : (s.seTimerFree t).timer t' = s.timer t' :=
  Function.update_of_ne ht _ _

/-- The submission has failed. -/
theorem TimerInv.submitFails (h : TimerInv s) (hslock : s.slock (s.cs e) = some (.linked e (some t))) :
    TimerInv ((s.drop e (some t)).place e (some (.leaving e))) := by
  have hlinked : (s.event e).timer = some t := h.links _ _ _ hslock rfl
  have hevent : (s.timer t).event = e := h.owned _ _ t hslock rfl
  have halive := h.alive t e ((h.sync t e).mpr hlinked)
  -- the place in `TimerKill` is like this one
  have hkilling : TimerLinks (s.place e (some (.killing e t))) := by
    refine h.setPlace (event_of_slock hslock rfl) ?_ ?_ ?_ ?_ ?_ ?_
    · rintro p ⟨⟩
      rfl
    · rintro p t' ⟨⟩ ⟨⟩
    · rintro p t' ⟨⟩ ⟨⟩
    · rintro t' ⟨⟩
      exact ⟨hevent, Or.inr hlinked, halive⟩
    · rintro t' ⟨⟩
    · intro t' ht
      exact Or.inr ⟨_, rfl, rfl⟩
  have hunlinked : TimerLinks ((s.place e (some (.killing e t))).seTimerUnlink e t) := by
    refine hkilling.unlink hevent (Or.inr hlinked) fun k p hp hpe => ?_
    rcases slock_place s e _ hp with ⟨_, hp'⟩ | ⟨hk, hp'⟩
    · obtain rfl := Option.some.inj hp'
      rfl
    · have hplace := h.places k p hp'
      rw [hpe] at hplace
      exact absurd hplace.symm hk
  have hleaving : TimerLinks ((s.seTimerUnlink e t).place e (some (.leaving e))) := by
    rw [← place_place _ e (some (.killing e t))]
    refine hunlinked.setPlain (event_of_slock (q := .killing e t) (Function.update_self _ _ _) rfl)
      leaving_plain fun t' ht' => ?_
    cases (unlink_timer s e t).symm.trans ht'
  have hfrees : ((s.seTimerUnlink e t).timer t).frees = 0 :=
    (timer_setTimer s t (v := { s.timer t with se := none }) SeTimer.frees rfl t).trans halive.2
  have hfreed : TimerLinks (((s.seTimerUnlink e t).place e (some (.leaving e))).seTimerFree t) := by
    refine hleaving.seTimerFree hfrees (unlink_se s e t) fun k e' hp => ?_
    rcases slock_place (s.seTimerUnlink e t) e _ hp with ⟨_, hp'⟩ | ⟨_, hp'⟩
    · cases hp'
    · exact h.not_killing hslock rfl rfl k e' hp'
  have hother : ∀ t', t' ≠ t → (((s.seTimerUnlink e t).place e (some (.leaving e))).seTimerFree t).timer t' = s.timer t' :=
    fun t' ht => (seTimerFree_other _ t ht).trans (Function.update_of_ne ht _ _)
  have hself := seTimerFree_timer ((s.seTimerUnlink e t).place e (some (.leaving e))) t
  change TimerInv (((s.seTimerUnlink e t).place e (some (.leaving e))).seTimerFree t)
  refine h.give hfreed .freed (owner_of_slock hslock) (owner_place_none s rfl) rfl (fun _ _ => Iff.rfl) rfl rfl hother
    ?_ ?_ (fun hne => absurd rfl hne) ?_
  · rw [hself]
    exact timer_setTimer s t (v := { s.timer t with se := none }) SeTimer.armed rfl t
  · rw [hself]
    exact timer_setTimer s t (v := { s.timer t with se := none }) SeTimer.fired rfl t
  · change SeTimer.frees _ = 1
    rw [hself]
    exact congrArg (· + 1) hfrees

/-- The submission -/
theorem TimerInv.submit (h : TimerInv s) {ok : Bool} (hstep : timerStep s (.submit e ok) = some s') : TimerInv s' := by
  simp only [timerStep] at hstep
  split at hstep
  next e' t₀ hslock =>
    split at hstep
    next he =>
      subst he
      have hlinked : (s.event e').timer = t₀ := h.links _ _ t₀ hslock rfl
      have howned : ∀ t, t₀ = some t → (s.timer t).event = e' := fun t ht => h.owned _ _ t hslock ht
      split at hstep
      · cases hstep
        have hsub := h.setEvent (e := e') (v := { s.event e' with inEngine := true }) rfl (Or.inl rfl)
          (Or.inr (Or.inl rfl))
        have htimer := (event_setEvent s e' (v := { s.event e' with inEngine := true })
          TimedSocketEvent.timer rfl e').trans hlinked
        refine hsub.keep (hsub.setPlace (event_of_slock hslock rfl) ?_ ?_ ?_ ?_ ?_ ?_)
          (at_place (owner_of_slock (p := .linked e' t₀) hslock).symm)
        · rintro p ⟨⟩
          rfl
        · rintro p t ⟨⟩ howns
          exact howned t howns
        · rintro p t ⟨⟩ ⟨⟩
          exact htimer
        · rintro t ⟨⟩
        · rintro t ⟨⟩
        · intro t ht
          exact Or.inr ⟨_, rfl, rfl⟩
      · cases hstep
        cases t₀ with
        | none =>
          have hsub := h.setEvent (e := e') (v := { s.event e' with timer := none }) hlinked.symm (Or.inl rfl)
            (Or.inr (Or.inl rfl))
          have htimer := (event_setEvent s e' (v := { s.event e' with timer := none })
            TimedSocketEvent.timer hlinked.symm e').trans hlinked
          refine hsub.toPlain hslock rfl rfl leaving_plain fun t ht => ?_
          cases htimer.symm.trans ht
        | some t =>
          exact h.submitFails hslock
    · cases hstep
  · cases hstep

/-- The thread goes on to enqueue the timer. -/
theorem TimerInv.enqueueTimer (h : TimerInv s) {q p' : SlockPlace} (hslock : s.slock (s.cs e) = some q)
    (he : q.event = e) {t₀ : Option ℕ} (howns : q.owns = t₀) (hnew : p'.event = e) (hplain : p'.plain = true)
    (hidle : ∀ t, (s.event e).timer = some t → (s.event e).active = true ∨ p'.between = true) :
    TimerInv ({ s with queue := t₀.toList ++ s.queue }.place e (some p')) := by
  have hplain' : ∀ p, some p' = some p → p.event = e ∧ p.plain = true := by
    intro p hp
    obtain rfl := Option.some.inj hp
    exact ⟨hnew, hplain⟩
  have hidle' : ∀ t, (s.event e).timer = some t → (s.event e).active = true ∨ ∃ p, some p' = some p ∧ p.between = true :=
    fun t ht => (hidle t ht).imp_right fun hp => ⟨p', rfl, hp⟩
  cases t₀ with
  | none => exact h.toPlain hslock he howns hplain' hidle'
  | some t =>
    have howner : s.owner (s.cs e) = some t := (owner_of_slock hslock).trans howns
    have hqueue : t ∉ s.queue := by
      intro hmem
      cases h.role_unique .queued (.holder (s.cs e)) hmem howner
    have hlinks : TimerLinks { s with queue := t :: s.queue } :=
      h.setThread (List.nodup_cons.mpr ⟨hqueue, h.queue⟩) h.chain h.rests h.done
    refine h.give (hlinks.setPlain (e := e) (event_of_slock hslock he) hplain' hidle') .queued howner
      (owner_place_none s (SlockPlace.plain_none hplain).1) rfl (fun t' ht => ?_) rfl rfl (fun _ _ => rfl) rfl rfl
      (fun _ => rfl) List.mem_cons_self
    rcases ht with ht | ht
    · exact List.mem_cons.trans (or_iff_right ht)
    · exact absurd rfl ht

/-- `timerEnqueue` -/
theorem TimerInv.enqueue (h : TimerInv s) (hstep : timerStep s (.enqueue e) = some s') : TimerInv s' := by
  simp only [timerStep] at hstep
  split at hstep
  next e' t₀ hslock =>
    split at hstep
    next he =>
      obtain ⟨rfl, _⟩ := he
      cases hstep
      exact h.enqueueTimer hslock rfl rfl rfl rfl fun t _ => Or.inr rfl
    · cases hstep
  next e' t₀ hslock =>
    split at hstep
    next he =>
      subst he
      cases hstep
      refine h.enqueueTimer hslock rfl rfl rfl rfl fun t ht => Or.inl ?_
      exact h.active_of_timer hslock (fun p hp => by cases hp; rfl) ht
    · cases hstep
  · cases hstep

/-- The state of the event is changed. -/
theorem TimerInv.activate (h : TimerInv s) (hstep : timerStep s (.activate e) = some s') : TimerInv s' := by
  have hset : TimerInv (s.setEvent e { s.event e with active := true }) :=
    h.setEvent rfl (Or.inl rfl) (Or.inl rfl)
  have hactive : ((s.setEvent e { s.event e with active := true }).event e).active = true := by
    change (Function.update s.event e _ e).active = true
    rw [Function.update_self]
  have htimer := event_setEvent s e (v := { s.event e with active := true }) TimedSocketEvent.timer rfl e
  simp only [timerStep] at hstep
  split at hstep
  next e' t₀ hslock =>
    split at hstep
    next he =>
      obtain ⟨rfl, _⟩ := he
      cases hstep
      refine hset.keep (hset.setPlace (event_of_slock hslock rfl) ?_ ?_ ?_ ?_ ?_ ?_)
        (at_place (owner_of_slock (p := .submitted e' t₀) hslock).symm)
      · rintro p ⟨⟩
        rfl
      · rintro p t ⟨⟩ howns
        exact h.owned _ _ t hslock howns
      · rintro p t ⟨⟩ ⟨⟩
        exact htimer.trans (h.links _ _ t₀ hslock rfl)
      · rintro t ⟨⟩
      · rintro t ⟨⟩
      · exact fun t _ => Or.inl hactive
    · cases hstep
  next e' hslock =>
    split at hstep
    next he =>
      subst he
      cases hstep
      exact hset.toPlain hslock rfl rfl leaving_plain fun t _ => Or.inl hactive
    · cases hstep
  · cases hstep

theorem TimerInv.leave (h : TimerInv s) (hslock : s.slock (s.cs e) = some (.leaving e)) : TimerInv (s.place e none) :=
  h.toPlain hslock rfl rfl none_plain fun _ ht =>
    Or.inl (h.active_of_timer hslock (fun p hp => by cases hp; rfl) ht)

theorem TimerInv.complete (h : TimerInv s) (hslock : s.slock (s.cs e) = none) :
    TimerInv ((s.setEvent e { s.event e with inEngine := false }).place e (some (.completing e))) := by
  have hset := h.setEvent (e := e) (v := { s.event e with inEngine := false }) rfl (Or.inl rfl) (Or.inr (Or.inl rfl))
  have hnone : ∀ p, s.slock (s.cs e) ≠ some p := by
    intro p hp
    cases hslock.symm.trans hp
  refine hset.keep (hset.setPlain (fun p hp => absurd hp (hnone p)) ?_ fun t ht => Or.inl ?_) (at_place ?_)
  · rintro p ⟨⟩
    exact ⟨rfl, rfl⟩
  · exact hset.active_of_timer (q := none) hslock (fun p hp => by cases hp) ht
  · change none = (s.slock (s.cs e)).bind SlockPlace.owns
    rw [hslock]
    rfl

/-- `_IOCPThread` up to the lock in `TimerKill` -/
theorem TimerInv.read (h : TimerInv s) (hstep : timerStep s (.read e) = some s') : TimerInv s' := by
  simp only [timerStep] at hstep
  split at hstep
  next hslock =>
    have howner := owner_of_slock hslock
    split at hstep
    · cases hstep
      split
      next t ht =>
        have hse := (h.sync t e).mpr ht
        have hplace : TimerInv (s.place e (some (.killing e t))) := by
          refine h.keep (h.setPlace (event_of_slock hslock rfl) ?_ ?_ ?_ ?_ ?_ ?_) (at_place howner.symm)
          · rintro p ⟨⟩
            rfl
          · rintro p t' ⟨⟩ ⟨⟩
          · rintro p t' ⟨⟩ ⟨⟩
          · rintro t' ⟨⟩
            exact ⟨(h.made t e hse).1, Or.inr ht, h.alive t e hse⟩
          · rintro t' ⟨⟩
          · exact fun t' _ => Or.inr ⟨_, rfl, rfl⟩
        exact hplace.setEvent rfl (Or.inl rfl) (Or.inr (Or.inr (Or.inr ⟨_, Function.update_self _ _ _, rfl, rfl⟩)))
      next hnone =>
        have hplace : TimerInv (s.place e (some (.killed e none))) := by
          refine h.keep (h.setPlace (event_of_slock hslock rfl) ?_ ?_ ?_ ?_ ?_ ?_) (at_place howner.symm)
          · rintro p ⟨⟩
            rfl
          · rintro p t' ⟨⟩ ⟨⟩
          · rintro p t' ⟨⟩ ⟨⟩
          · rintro t' ⟨⟩
          · rintro t' ⟨⟩
            exact ⟨hnone, fun t'' ht'' => by cases ht''⟩
          · exact fun t' ht' => absurd ht' (by simp [hnone])
        exact hplace.setEvent rfl (Or.inl rfl) (Or.inr (Or.inr (Or.inl hnone)))
    · cases hstep
      refine (h.toPlain hslock rfl rfl none_plain fun t ht => Or.inl ?_).setClearing _
      exact h.active_of_timer hslock (fun p hp => by cases hp; rfl) ht
  · cases hstep

/-- `TimerKill` has read the timer of an event, and the thread has no other timer. -/
theorem TimerInv.killUnlink (h : TimerInv s) (hslock : s.slock (s.cs e) = some (.killing e t)) :
    TimerInv (s.seTimerUnlink e t) := by
  obtain ⟨hevent, htimer, _, _⟩ := h.killing _ e t hslock
  refine h.keep (h.unlink hevent htimer fun k p hp hpe => ?_) fun t' r => ?_
  · have hk : s.cs p.event = k := h.places k p hp
    rw [← hk, hpe, hslock] at hp
    obtain rfl := Option.some.inj hp
    rfl
  · have hkeep : ∀ {α : Type} (f : SeTimer → α), f { s.timer t with se := none } = f (s.timer t) →
        f ((s.seTimerUnlink e t).timer t') = f (s.timer t') := fun f hf => timer_setTimer s t f hf t'
    exact at_congr s (s.seTimerUnlink e t) Iff.rfl (fun _ => Iff.rfl) Iff.rfl Iff.rfl (hkeep SeTimer.armed rfl)
      (hkeep SeTimer.fired rfl) Iff.rfl (hkeep SeTimer.frees rfl) r

/-- `CancelWaitableTimer` has succeeded. -/
theorem TimerInv.cancel (h : TimerInv s) (hslock : s.slock (s.cs e) = some (.killing e t))
    (htimer : (s.event e).timer = none) (hse : (s.timer t).se = none) (hrun : s.At t .running) :
    TimerInv ((s.setTimer t { s.timer t with armed := false, fired := false }).place e (some (.killed e (some t)))) := by
  have hset : TimerLinks (s.setTimer t { s.timer t with armed := false, fired := false }) :=
    h.setTimer rfl rfl rfl rfl fun _ => rfl
  have hself : ((s.setTimer t { s.timer t with armed := false, fired := false }).place e
      (some (.killed e (some t)))).timer t = { s.timer t with armed := false, fired := false } := Function.update_self _ _ _
  have hkeep : ∀ {α : Type} (f : SeTimer → α), f { s.timer t with armed := false, fired := false } = f (s.timer t) → ∀ t',
      f ((s.setTimer t { s.timer t with armed := false, fired := false }).timer t') = f (s.timer t') :=
    fun f hf => timer_setTimer s t f hf
  have howner := owner_place (s.setTimer t { s.timer t with armed := false, fired := false }) e (some (.killed e (some t)))
  have hnone : s.owner (s.cs e) = none := owner_of_slock hslock
  refine h.become (hset.setPlace (event_of_slock (q := .killing e t) hslock rfl) ?_ ?_ ?_ ?_ ?_ ?_) t .running
    (.holder (s.cs e)) hrun ?_ ?_ ?_ ?_
  · rintro p ⟨⟩
    rfl
  · rintro p t' ⟨⟩ ⟨⟩
    exact (hkeep SeTimer.event rfl t).trans (h.killing _ e t hslock).1
  · rintro p t' ⟨⟩ ⟨⟩
  · rintro t' ⟨⟩
  · rintro t' ⟨⟩
    refine ⟨htimer, ?_⟩
    rintro t' ⟨⟩
    exact (hkeep SeTimer.se rfl t).trans hse
  · intro t' ht'
    cases htimer.symm.trans ht'
  · intro t' ht q
    have hother : ((s.setTimer t { s.timer t with armed := false, fired := false }).place e
        (some (.killed e (some t)))).timer t' = s.timer t' := Function.update_of_ne ht _ _
    refine at_congr s ((s.setTimer t { s.timer t with armed := false, fired := false }).place e
      (some (.killed e (some t)))) Iff.rfl (owner_place_iff
        (s := s.setTimer t { s.timer t with armed := false, fired := false }) ⟨fun hp => ?_, fun hp => ?_⟩)
      Iff.rfl Iff.rfl ?_ ?_ Iff.rfl ?_ q
    · exact absurd (Option.some.inj hp).symm ht
    · cases hnone.symm.trans hp
    all_goals rw [hother]
  · change ¬ (_ ∨ _)
    rw [hself]
    simp
  · intro q hrunning hholder hq
    cases q with
    | holder k =>
      change TimerSystem.owner _ k = _ at hq
      rw [howner] at hq
      split at hq
      next hk => exact absurd (congrArg TimerRole.holder hk) hholder
      · exact hq
    | running => exact absurd rfl hrunning
    | freed =>
      change SeTimer.frees _ = 1 at hq
      rw [hself] at hq
      exact hq
    | _ => exact hq
  · exact (howner _).trans (if_pos rfl)

/-- The lock in `TimerKill` -/
theorem TimerInv.kill (h : TimerInv s) {ok : Bool} (hok : FreedInTime s (.kill e ok))
    (hstep : timerStep s (.kill e ok) = some s') : TimerInv s' := by
  simp only [timerStep] at hstep
  split at hstep
  next e' t hslock =>
    split at hstep
    next he =>
      subst he
      rw [use_eq (h.killing _ e' t hslock).2.2.2] at hstep
      have hunlink := h.killUnlink hslock
      split at hstep
      next hcancel =>
        cases hstep
        refine hunlink.cancel hslock (unlink_timer s e' t) (unlink_se s e' t) ?_
        change ((s.seTimerUnlink e' t).timer t).armed = true ∨ ((s.seTimerUnlink e' t).timer t).fired = true
        have hkeep : ∀ (f : SeTimer → Bool), f { s.timer t with se := none } = f (s.timer t) →
            f ((s.seTimerUnlink e' t).timer t) = f (s.timer t) := fun f hf => timer_setTimer s t f hf t
        rw [hkeep SeTimer.armed rfl, hkeep SeTimer.fired rfl]
        exact hok hcancel.2 t hslock hcancel.1
      · cases hstep
        refine hunlink.keep (hunlink.setPlace (event_of_slock (q := .killing e' t) hslock rfl) ?_ ?_ ?_ ?_ ?_ ?_)
          (at_place (owner_of_slock (p := .killing e' t) hslock).symm)
        · rintro p ⟨⟩
          rfl
        · rintro p t' ⟨⟩ ⟨⟩
        · rintro p t' ⟨⟩ ⟨⟩
        · rintro t' ⟨⟩
        · rintro t' ⟨⟩
          exact ⟨unlink_timer s e' t, fun t'' ht'' => by cases ht''⟩
        · intro t' ht'
          cases (unlink_timer s e' t).symm.trans ht'
    · cases hstep
  · cases hstep

/-- `TimerKill` frees the timer. -/
theorem TimerInv.killFree (h : TimerInv s) (hslock : s.slock (s.cs e) = some (.killed e (some t))) :
    TimerInv ((s.seTimerFree t).place e (some (.killed e none))) := by
  obtain ⟨htimer, hse⟩ := h.killed _ e _ hslock
  have hfrees : (s.timer t).frees = 0 := h.unfreed (r := .holder (s.cs e)) (owner_of_slock hslock) (by simp)
  have hfree : TimerLinks (s.seTimerFree t) :=
    h.seTimerFree hfrees (hse t rfl) (h.not_killing hslock rfl rfl)
  have hself := seTimerFree_timer s t
  have harmed : ((s.seTimerFree t).timer t).armed = (s.timer t).armed := by rw [hself]
  have hfired : ((s.seTimerFree t).timer t).fired = (s.timer t).fired := by rw [hself]
  have hother : ∀ t', t' ≠ t → ((s.seTimerFree t).place e (some (.killed e none))).timer t' = s.timer t' :=
    fun t' ht => seTimerFree_other s t ht
  refine h.give (hfree.setPlace (event_of_slock (q := .killed e (some t)) hslock rfl) ?_ ?_ ?_ ?_ ?_ ?_) .freed
    (owner_of_slock hslock) (owner_place_none s rfl) rfl (fun _ _ => Iff.rfl) rfl rfl hother
    harmed hfired (fun hne => absurd rfl hne) ?_
  · rintro p ⟨⟩
    rfl
  · rintro p t' ⟨⟩ ⟨⟩
  · rintro p t' ⟨⟩ ⟨⟩
  · rintro t' ⟨⟩
  · rintro t' ⟨⟩
    exact ⟨htimer, fun t'' ht'' => by cases ht''⟩
  · intro t' ht'
    cases htimer.symm.trans ht'
  · exact (congrArg SeTimer.frees hself).trans (congrArg (· + 1) hfrees)

/-- The rest of `_IOCPThread` up to the release of `slock` -/
theorem TimerInv.finish (h : TimerInv s) (hslock : s.slock (s.cs e) = some (.killed e none)) (error : Errno)
    (clearing : List ℕ) : TimerInv { (s.setEvent e { s.event e with active := false, error := error }).place e none with
      clearing := clearing } := by
  have hnone := (h.killed _ e none hslock).1
  have hplace := h.toPlain hslock rfl rfl none_plain fun t ht => by cases hnone.symm.trans ht
  exact (hplace.setEvent (e := e) (v := { s.event e with active := false, error := error }) rfl (Or.inl rfl)
    (Or.inr (Or.inr (Or.inl hnone)))).setClearing clearing

end Slock

/-! ### The timer thread -/

section Thread

variable {s s' : TimerSystem} {t : ℕ}

/-- Nothing is pulled when the timer thread is not about to start a timer. -/
theorem TimerLinks.chain_nil (h : TimerLinks s) (hstarting : s.thread ≠ .starting)
    (hrejected : ∀ t, s.thread ≠ .rejected t) : s.chain = [] := by
  rcases h.rests with hnil | hs | ⟨t, hr⟩
  · exact hnil
  · exact absurd hs hstarting
  · exact absurd hr (hrejected t)

/-- The timer thread pulls the queue. -/
theorem TimerInv.pull (h : TimerInv s) (hthread : s.thread = .sleeping) :
    TimerInv { s with chain := s.queue, queue := [], thread := .starting } := by
  have hchain : s.chain = [] := h.chain_nil (by simp [hthread]) (by simp [hthread])
  have hlinks : TimerLinks { s with queue := [], chain := s.queue, thread := .starting } :=
    h.setThread List.nodup_nil h.queue (Or.inr (Or.inl rfl)) fun t e _ => ⟨by simp, by simp⟩
  refine { hlinks with once := fun t => ?_ }
  obtain ⟨r, hr, hunique⟩ := h.once t
  have hkeep : ∀ q, q ≠ .queued → q ≠ .pulled →
      (TimerSystem.At { s with chain := s.queue, queue := [], thread := .starting } t q ↔ s.At t q) := by
    intro q hqueued hpulled
    cases q with
    | queued => exact absurd rfl hqueued
    | pulled => exact absurd rfl hpulled
    | thread =>
      change none = some t ↔ s.thread.timer = some t
      rw [hthread]
      exact Iff.rfl
    | _ => exact Iff.rfl
  by_cases hmem : t ∈ s.queue
  · refine ⟨.pulled, hmem, fun q hq => ?_⟩
    by_contra hpulled
    have hqueued : q ≠ .queued := by
      rintro rfl
      cases hq
    exact hqueued (h.role_unique q .queued ((hkeep q hqueued hpulled).mp hq) hmem)
  · have hqueued : r ≠ .queued := by
      rintro rfl
      exact hmem hr
    have hpulled : r ≠ .pulled := by
      rintro rfl
      change t ∈ s.chain at hr
      rw [hchain] at hr
      cases hr
    refine ⟨r, (hkeep r hqueued hpulled).mpr hr, fun q hq => ?_⟩
    have hqueued' : q ≠ .queued := by
      rintro rfl
      cases hq
    have hpulled' : q ≠ .pulled := by
      rintro rfl
      exact hmem hq
    exact hunique q ((hkeep q hqueued' hpulled').mp hq)

/-- What `timerCallback` and `timerStart` do with the event of a timer. -/
theorem TimerInv.expire (h : TimerInv s) (hrole : s.At t .pulled ∨ s.At t .thread) : TimerInv (s.expire t) := by
  have howner : ∀ k, s.owner k ≠ some t := by
    intro k hk
    rcases hrole with hrole | hrole
    · cases h.role_unique .pulled (.holder k) hrole hk
    · cases h.role_unique .thread (.holder k) hrole hk
  refine h.keep (h.toTimerLinks.expire howner) fun t' r => ?_
  have hkeep : ∀ {α : Type} (f : SeTimer → α), f { s.timer t with se := none } = f (s.timer t) →
      f ((s.expire t).timer t') = f (s.timer t') := fun f hf => expire_timer s t f hf t'
  have hframe := expire_frame s t
  refine at_congr s (s.expire t) ?_ (fun k => ?_) ?_ ?_ (hkeep SeTimer.armed rfl) (hkeep SeTimer.fired rfl) ?_
    (hkeep SeTimer.frees rfl) r
  · rw [hframe]
  · exact congrArg (fun u : TimerSystem => u.owner k = some t') hframe ▸ Iff.rfl
  all_goals rw [hframe]

/-- A timer is not started. -/
theorem TimerInv.reject (h : TimerInv s) {chain : List ℕ} (hthread : s.thread = .starting) (hchain : s.chain = t :: chain)
    (hse : (s.timer t).se = none) : TimerInv { s with chain := chain, thread := .rejected t } := by
  have hnodup := h.chain
  rw [hchain, List.nodup_cons] at hnodup
  have hpulled : s.At t .pulled := by
    change t ∈ s.chain
    rw [hchain]
    exact List.mem_cons_self
  have hlinks : TimerLinks { s with queue := s.queue, chain := chain, thread := .rejected t } := by
    refine h.setThread h.queue hnodup.2 (Or.inr (Or.inr ⟨t, rfl⟩)) fun t' e hse' => ⟨?_, by simp⟩
    rintro ⟨⟩
    cases hse.symm.trans hse'
  refine h.become hlinks t .pulled .thread hpulled ?_ hnodup.1 ?_ rfl
  · intro t' ht q
    refine at_congr s { s with chain := chain, thread := .rejected t } Iff.rfl (fun _ => Iff.rfl) Iff.rfl ?_ rfl rfl ?_
      rfl q
    · rw [hchain, List.mem_cons]
      exact (or_iff_right ht).symm
    · change some t = some t' ↔ s.thread.timer = some t'
      rw [hthread]
      exact ⟨fun heq => absurd (Option.some.inj heq).symm ht, fun hn => by cases hn⟩
  · intro q hpulled' hthread' hq
    cases q with
    | pulled => exact absurd rfl hpulled'
    | thread => exact absurd rfl hthread'
    | _ => exact hq

/-- A timer is started. -/
theorem TimerInv.started (h : TimerInv s) {chain : List ℕ} (hthread : s.thread = .starting)
    (hchain : s.chain = t :: chain) :
    TimerInv ({ s with chain := chain }.setTimer t { s.timer t with started := true, armed := true }) := by
  have hnodup := h.chain
  rw [hchain, List.nodup_cons] at hnodup
  have hpulled : s.At t .pulled := by
    change t ∈ s.chain
    rw [hchain]
    exact List.mem_cons_self
  have hfired : (s.timer t).fired = false := by
    rw [← Bool.not_eq_true]
    intro hfired
    cases h.role_unique .pulled .running hpulled (Or.inr hfired)
  have hset : TimerLinks (s.setTimer t { s.timer t with started := true, armed := true }) :=
    h.setTimer rfl rfl rfl rfl fun _ => hfired
  have hlinks : TimerLinks ({ s with chain := chain }.setTimer t { s.timer t with started := true, armed := true }) :=
    hset.setThread h.queue hnodup.2 (Or.inr (Or.inl hthread)) hset.done
  have hself : ({ s with chain := chain }.setTimer t { s.timer t with started := true, armed := true }).timer t =
      { s.timer t with started := true, armed := true } := Function.update_self _ _ _
  refine h.become hlinks t .pulled .running hpulled ?_ hnodup.1 ?_ ?_
  · intro t' ht q
    have hother : ({ s with chain := chain }.setTimer t { s.timer t with started := true, armed := true }).timer t' =
        s.timer t' := Function.update_of_ne ht _ _
    refine at_congr s ({ s with chain := chain }.setTimer t { s.timer t with started := true, armed := true }) Iff.rfl
      (fun _ => Iff.rfl) Iff.rfl ?_ ?_ ?_ Iff.rfl ?_ q
    · rw [hchain, List.mem_cons]
      exact (or_iff_right ht).symm
    all_goals rw [hother]
  · intro q hpulled' hrunning hq
    cases q with
    | pulled => exact absurd rfl hpulled'
    | running => exact absurd rfl hrunning
    | freed =>
      change SeTimer.frees _ = 1 at hq
      rw [hself] at hq
      exact hq
    | _ => exact hq
  · left
    rw [hself]

/-- `timerStart` -/
theorem TimerInv.start (h : TimerInv s) {ok : Bool} (hstep : timerStep s (.start ok) = some s') : TimerInv s' := by
  simp only [timerStep] at hstep
  split at hstep
  next t chain hthread hchain =>
    have hpulled : s.At t .pulled := by
      change t ∈ s.chain
      rw [hchain]
      exact List.mem_cons_self
    rw [use_eq (h.unfreed hpulled (by simp))] at hstep
    split at hstep
    next hse =>
      cases hstep
      exact h.reject hthread hchain hse
    · split at hstep
      · cases hstep
        exact h.started hthread hchain
      · cases hstep
        have hexpire := h.expire (Or.inl hpulled)
        rw [expire_chain]
        rw [expire_frame] at hexpire ⊢
        exact hexpire.reject hthread hchain (expire_se s t)
  · cases hstep

/-- The timer thread frees a timer. -/
theorem TimerInv.threadFree (h : TimerInv s) {p : TimerPlace} (htimer : s.thread.timer = some t)
    (hdone : s.thread = .rejected t ∨ s.thread = .called t) (hreading : ¬ s.Reading t) (hp : p.timer = none)
    (hrests : s.chain = [] ∨ p = .starting) : TimerInv { s.seTimerFree t with thread := p } := by
  have hfrees : (s.timer t).frees = 0 := h.unfreed (r := .thread) htimer (by simp)
  have hse : (s.timer t).se = none := by
    rw [Option.eq_none_iff_forall_ne_some]
    intro e hse
    rcases hdone with hthread | hthread
    · exact (h.done t e hse).1 hthread
    · exact (h.done t e hse).2 hthread
  have hfree : TimerLinks (s.seTimerFree t) := by
    refine h.seTimerFree hfrees hse fun k e hk => hreading ?_
    obtain ⟨hevent, _⟩ := h.killing k e t hk
    have hplace : s.cs e = k := h.places k _ hk
    unfold TimerSystem.Reading
    rw [hevent, hplace]
    exact hk
  have hlinks : TimerLinks { s.seTimerFree t with thread := p } := by
    refine hfree.setThread h.queue h.chain (hrests.imp_right Or.inl) fun t' e _ => ⟨?_, ?_⟩
    all_goals
      rintro rfl
      cases hp
  have hself := seTimerFree_timer s t
  refine h.become hlinks t .thread .freed htimer ?_ ?_ ?_ ?_
  · intro t' ht q
    have hother := seTimerFree_other s t ht
    refine at_congr s { s.seTimerFree t with thread := p } Iff.rfl (fun _ => Iff.rfl) Iff.rfl Iff.rfl ?_ ?_ ?_ ?_ q
    · exact congrArg SeTimer.armed hother
    · exact congrArg SeTimer.fired hother
    · change p.timer = some t' ↔ _
      rw [hp, htimer]
      exact ⟨fun hn => (by cases hn), fun heq => absurd (Option.some.inj heq).symm ht⟩
    · exact congrArg SeTimer.frees hother
  · change ¬ p.timer = some t
    rw [hp]
    intro hn
    cases hn
  · intro q hthread hfreed hq
    cases q with
    | thread => exact absurd rfl hthread
    | freed => exact absurd rfl hfreed
    | running =>
      change ((s.seTimerFree t).timer t).armed = true ∨ ((s.seTimerFree t).timer t).fired = true at hq
      rw [hself] at hq
      exact hq
    | _ => exact hq
  · exact (congrArg SeTimer.frees hself).trans (congrArg (· + 1) hfrees)

/-- The timer thread goes on with the same timer. -/
theorem TimerInv.setThread (h : TimerInv s) {p : TimerPlace} (hp : p.timer = s.thread.timer)
    (hrests : s.chain = [] ∨ p = .starting) (hdone : ∀ t e, (s.timer t).se = some e → p ≠ .rejected t ∧ p ≠ .called t) :
    TimerInv { s with thread := p } := by
  refine h.keep (h.toTimerLinks.setThread h.queue h.chain (hrests.imp_right Or.inl) hdone) fun t r => ?_
  refine at_congr s { s with thread := p } Iff.rfl (fun _ => Iff.rfl) Iff.rfl Iff.rfl rfl rfl ?_ rfl r
  change p.timer = some t ↔ _
  rw [hp]

/-- The time of a timer is over. -/
theorem TimerInv.fire (h : TimerInv s) (harmed : (s.timer t).armed = true) :
    TimerInv (s.setTimer t { s.timer t with armed := false, fired := true }) := by
  have hself : (s.setTimer t { s.timer t with armed := false, fired := true }).timer t =
      { s.timer t with armed := false, fired := true } := Function.update_self _ _ _
  refine h.keep (h.setTimer rfl rfl rfl rfl fun hfalse => by cases hfalse) fun t' r => ?_
  by_cases ht : t' = t
  · subst ht
    cases r with
    | running =>
      change _ ∨ _ ↔ _ ∨ _
      rw [hself, harmed]
      exact ⟨fun _ => Or.inl rfl, fun _ => Or.inr rfl⟩
    | freed =>
      change SeTimer.frees _ = 1 ↔ _
      rw [hself]
      exact Iff.rfl
    | _ => exact Iff.rfl
  · have hother : (s.setTimer t { s.timer t with armed := false, fired := true }).timer t' = s.timer t' :=
      Function.update_of_ne ht _ _
    refine at_congr s (s.setTimer t { s.timer t with armed := false, fired := true }) Iff.rfl (fun _ => Iff.rfl) Iff.rfl
      Iff.rfl ?_ ?_ Iff.rfl ?_ r
    all_goals rw [hother]

/-- The callback of a timer is called. -/
theorem TimerInv.call (h : TimerInv s) (hthread : s.thread = .sleeping) (hfired : (s.timer t).fired = true) :
    TimerInv { s.setTimer t { s.timer t with fired := false } with thread := .calling t } := by
  have hchain : s.chain = [] := h.chain_nil (by simp [hthread]) (by simp [hthread])
  have harmed : (s.timer t).armed = false := by
    rw [← Bool.not_eq_true]
    intro harmed
    cases hfired.symm.trans (h.due t harmed)
  have hset : TimerLinks (s.setTimer t { s.timer t with fired := false }) := h.setTimer rfl rfl rfl rfl fun _ => rfl
  have hlinks : TimerLinks { s.setTimer t { s.timer t with fired := false } with thread := .calling t } :=
    hset.setThread h.queue h.chain (Or.inl hchain) fun t' e _ => ⟨by simp, by simp⟩
  have hself : (s.setTimer t { s.timer t with fired := false }).timer t = { s.timer t with fired := false } :=
    Function.update_self _ _ _
  refine h.become hlinks t .running .thread (Or.inr hfired) ?_ ?_ ?_ rfl
  · intro t' ht q
    have hother : (s.setTimer t { s.timer t with fired := false }).timer t' = s.timer t' := Function.update_of_ne ht _ _
    refine at_congr s { s.setTimer t { s.timer t with fired := false } with thread := .calling t } Iff.rfl
      (fun _ => Iff.rfl) Iff.rfl Iff.rfl ?_ ?_ ?_ ?_ q
    · exact congrArg SeTimer.armed hother
    · exact congrArg SeTimer.fired hother
    · change some t = some t' ↔ s.thread.timer = some t'
      rw [hthread]
      exact ⟨fun heq => absurd (Option.some.inj heq).symm ht, fun hn => by cases hn⟩
    · exact congrArg SeTimer.frees hother
  · change ¬ (((s.setTimer t { s.timer t with fired := false }).timer t).armed = true ∨
      ((s.setTimer t { s.timer t with fired := false }).timer t).fired = true)
    rw [hself]
    simp [harmed]
  · intro q hrunning hthread' hq
    cases q with
    | running => exact absurd rfl hrunning
    | thread => exact absurd rfl hthread'
    | freed =>
      change ((s.setTimer t { s.timer t with fired := false }).timer t).frees = 1 at hq
      rw [hself] at hq
      exact hq
    | _ => exact hq

end Thread

end Connio
