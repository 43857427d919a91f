import Connio.PollTokens

/-!
# Which submissions time out

The two loops of the poll thread with the threads that complete, handle and submit events between them: the first loop
takes the events off the list that expires, and the second one gives each its `ETIMEDOUT`.

* `PollEngine.Expiring` — a submission that the second loop has yet to see to;
* `ExpiresOnly` — the second loop finds the submission that was on the list, or an event that is not linked;
* `ExpiryInv`, `pollStep_expiryInv` — **PROVED**: an `ETIMEDOUT` is one of a submission that was on the list;
* `reachable_timesOut` — **PROVED**: in runs in which the second loop finds what was on the list;
* `timesOut_fails` — **PROVED**: a submission made between the two loops times out at once.
-/

namespace Connio

open Connio.Lib

/-! ### What the second loop has to do -/

def EngineOp.expires : EngineOp → Option (EventRef × ℕ)
  | expire e m => some (e, m)
  | _ => none

/-- The expiry that a thread is about to do. -/
def LockTask.expires : LockTask → Option (EventRef × ℕ)
  | wants op | wantsList op _ | hasList op _ => op.expires
  | releasing _ _ | begins _ => none

/-- The submissions that have been taken off a list. -/
def PollState.expires : PollState → List (EventRef × ℕ)
  | detaching _ done _ _ => done
  | expiring es => es
  | _ => []

/-- A submission that the second loop has yet to see to. -/
def PollEngine.Expiring (s : PollEngine) (x : EventRef × ℕ) : Prop :=
  (∃ t, (s.task t).bind LockTask.expires = some x) ∨ x ∈ s.poll.expires

/-- **The second loop finds the submission that was on the list,** or an event that is not linked. -/
def ExpiresOnly (s : PollEngine) : EngineMove → Prop
  | .advance t =>
    ∀ x ∈ (s.task t).bind LockTask.expires, (s.event x.1).se.arg.isSome = true → (s.event x.1).submissions = x.2
  | _ => True

instance (s : PollEngine) (m : EngineMove) : Decidable (ExpiresOnly s m) :=
  match m with
  | .advance t => inferInstanceAs (Decidable (∀ x ∈ (s.task t).bind LockTask.expires, _ → _))
  | .start _ _ | .fetch _ | .tick _ | .next | .free _ => instDecidableTrue

/-- **Only a submission that was on a list that expired times out:** one that is completed with `ETIMEDOUT`, and one
whose callback gets it. -/
def TimesOut (s : PollEngine) : Prop :=
  ∀ e n, (e, n, Errno.etimedout) ∈ s.completed ∨ (e, n, Errno.etimedout) ∈ s.captured → (e, n) ∈ s.expired

/-- **The invariant of the expiry.** -/
structure ExpiryInv (s : PollEngine) : Prop where
  token : EventTokenInv s
  timesOut : TimesOut s
  /-- an event that is linked has `ETIMEDOUT` only when its submission was on the list -/
  error : ∀ e, (s.event e).se.arg.isSome = true → (s.event e).se.error = Errno.etimedout →
    (e, (s.event e).submissions) ∈ s.expired
  expiring : ∀ x, s.Expiring x → x ∈ s.expired

section Expiry

variable {s s' : PollEngine}

/-- A step that completes nothing and unlinks nothing. -/
theorem ExpiryInv.moved (h : ExpiryInv s) (htoken : EventTokenInv s') (hcompleted : s'.completed = s.completed)
    (hcaptured : s'.captured = s.captured) (hexpired : ∀ x ∈ s.expired, x ∈ s'.expired)
    (hevent : ∀ e, (s'.event e).se = (s.event e).se ∧ (s'.event e).submissions = (s.event e).submissions)
    (hexpiring : ∀ x, s'.Expiring x → s.Expiring x ∨ x ∈ s'.expired) : ExpiryInv s' where
  token := htoken
  timesOut e n hn := by
    rw [hcompleted, hcaptured] at hn
    exact hexpired _ (h.timesOut e n hn)
  error e hlinked herror := by
    obtain ⟨hse, hsub⟩ := hevent e
    rw [hse] at hlinked herror
    rw [hsub]
    exact hexpired _ (h.error e hlinked herror)
  expiring x hx := (hexpiring x hx).elim (fun hx => hexpired x (h.expiring x hx)) id

/-- What a thread is about to expire is expiring. -/
theorem expiring_of_task {t : EngineThread} {task : LockTask} {x : EventRef × ℕ} (ht : s.task t = some task)
    (hx : task.expires = some x) : s.Expiring x := by
  refine .inl ⟨t, ?_⟩
  rw [ht]
  exact hx

/-- The thread `t` goes on to a task that expires nothing but what the old one does. -/
theorem expiring_of_setTask {t : EngineThread} {task : LockTask} {x : EventRef × ℕ} (task' : Option LockTask)
    (ht : s.task t = some task) (htask : s'.task = (s.setTask t task').task) (hpoll : s'.poll = s.poll)
    (hsame : ∀ x, task'.bind LockTask.expires = some x → task.expires = some x) (hx : s'.Expiring x) :
    s.Expiring x := by
  rcases hx with ⟨u, hu⟩ | hx
  · rw [htask] at hu
    by_cases hut : u = t
    · rw [show (s.setTask t task').task u = task' from if_pos hut] at hu
      exact expiring_of_task ht (hsame x hu)
    · rw [show (s.setTask t task').task u = s.task u from if_neg hut] at hu
      exact .inl ⟨u, hu⟩
  · exact .inr (hpoll ▸ hx)

/-- An operation that is expiring an event finds the submission that was on the list. -/
theorem ExpiryInv.perform (h : ExpiryInv s) {t : EngineThread} {op : EngineOp} {task : LockTask}
    (ht : s.task t = some task) (hop : task.expires = op.expires) (htoken : EventTokenInv (s.perform t op))
    (hok : ∀ x, op.expires = some x → (s.event x.1).se.arg.isSome = true → (s.event x.1).submissions = x.2) :
    ExpiryInv (s.perform t op) := by
  have hevent : ∀ e, e ≠ op.event → (s.perform t op).event e = s.event e := fun e he => if_neg he
  have hat : (s.perform t op).event op.event = (op.run t (s.event op.event)).2 := if_pos rfl
  have hsound := h.token.sound op.event
  -- an `ETIMEDOUT` that the operation leaves to a linked event
  have herror : (op.run t (s.event op.event)).2.se.arg.isSome = true →
      (op.run t (s.event op.event)).2.se.error = Errno.etimedout →
      (op.run t (s.event op.event)).2.submissions = (s.event op.event).submissions ∧
        (op.event, (s.event op.event).submissions) ∈ s.expired := by
    intro hlinked herr
    rcases op.run_cases t (s.event op.event) with hr | ⟨_, se, hse, _, hr⟩ | ⟨_, _, _, _, _, _, _, _, hr⟩ |
      ⟨_, _, hr⟩ | ⟨err, hfrom, _, hr⟩
    · rw [hr] at hlinked herr ⊢
      exact ⟨rfl, h.error _ hlinked herr⟩
    · rw [hr] at hlinked
      simp [hse] at hlinked
    · rw [hr] at herr
      cases herr
    · rw [hr] at hlinked
      cases hlinked
    · have hfields : (op.run t (s.event op.event)).2.se.arg = (s.event op.event).se.arg ∧
          (op.run t (s.event op.event)).2.se.error = err ∧
          (op.run t (s.event op.event)).2.submissions = (s.event op.event).submissions := by
        rw [hr]
        cases hin : (s.event op.event).se.inEngine with
        | true =>
          rw [TimedEvent.leave_pos t err hin]
          exact ⟨rfl, rfl, rfl⟩
        | false =>
          rw [TimedEvent.leave_neg t err hin]
          exact ⟨rfl, rfl, rfl⟩
      obtain ⟨harg, heq, hsub⟩ := hfields
      rw [harg] at hlinked
      rw [heq] at herr
      refine ⟨hsub, ?_⟩
      rcases hfrom herr with hold | ⟨e, m, hexpire⟩
      · exact h.error _ hlinked hold
      · have hx : op.expires = some (e, m) := by rw [hexpire]; rfl
        have hevent : op.event = e := by rw [hexpire]; rfl
        rw [hevent] at hlinked ⊢
        rw [hok (e, m) hx hlinked]
        exact h.expiring (e, m) (expiring_of_task ht (hop.trans hx))
  refine ⟨htoken, ?_, ?_, ?_⟩
  · intro e n hn
    rcases hn with hn | hn
    · simp only [PollEngine.perform] at hn
      split at hn
      next hdone =>
        rcases List.mem_cons.mp hn with hn | hn
        · -- an event that is completed was linked, and still is
          injection hn with he hn
          injection hn with hsub herr
          have hbeginning : (op.run t (s.event op.event)).2.token = .beginning t := by
            rcases op.run_token t hsound with ⟨_, _, hbegin⟩ | ⟨hnot, _⟩
            · exact hbegin
            · rw [hdone] at hnot
              cases hnot
          have hlinked := (htoken.sound op.event).linked
          rw [hat, hbeginning] at hlinked
          rw [he, hsub]
          exact (herror (hlinked.mpr (by simp)) herr.symm).2
        · exact h.timesOut e n (.inl hn)
      next => exact h.timesOut e n (.inl hn)
    · simp only [PollEngine.perform] at hn
      split at hn
      next _ e' arg harg =>
        rcases List.mem_cons.mp hn with hn | hn
        · -- the callback gets the error of a linked event
          injection hn with he hn
          injection hn with hsub herr
          have hlinked : (s.event e').se.arg.isSome = true := by
            rw [show (s.event e').se.arg = some arg from harg]
            rfl
          rw [he, hsub]
          exact h.error e' hlinked herr.symm
        · exact h.timesOut e n (.inr hn)
      next => exact h.timesOut e n (.inr hn)
  · intro e hlinked herr
    by_cases he : e = op.event
    · rw [he, hat] at hlinked herr ⊢
      obtain ⟨hsub, hmem⟩ := herror hlinked herr
      rw [hsub]
      exact hmem
    · rw [hevent e he] at hlinked herr ⊢
      exact h.error e hlinked herr
  · intro x hx
    apply h.expiring x
    refine expiring_of_setTask (some (.releasing op _)) ht rfl rfl ?_ hx
    intro x hx
    cases hx

/-- A thread goes on with its operation. -/
theorem ExpiryInv.advance (h : ExpiryInv s) {t : EngineThread} {task : LockTask} (ht : s.task t = some task)
    (htoken : EventTokenInv s')
    (hok : ∀ x, task.expires = some x → (s.event x.1).se.arg.isSome = true → (s.event x.1).submissions = x.2)
    (hs : s.advance t task = some s') : ExpiryInv s' := by
  have hset : ∀ (task' : Option LockTask), s'.task = (s.setTask t task').task → s'.poll = s.poll →
      (∀ x, task'.bind LockTask.expires = some x → task.expires = some x) → ∀ x, s'.Expiring x →
        s.Expiring x ∨ x ∈ s'.expired := by
    intro task' htask hpoll hsame x hx
    exact .inl (expiring_of_setTask task' ht htask hpoll hsame hx)
  cases task with
  | wants op =>
    simp only [PollEngine.advance] at hs
    split at hs
    · split at hs
      next l _ =>
        cases hs
        apply h.moved htoken rfl rfl (fun x hx => hx) fun e => ⟨rfl, rfl⟩
        exact hset (some (.wantsList op l)) rfl rfl fun x hx => hx
      next =>
        cases hs
        have hperform := h.perform ht rfl (htoken.congr rfl rfl) hok
        exact hperform.moved htoken rfl rfl (fun x hx => hx) (fun e => ⟨rfl, rfl⟩) fun x hx => .inl hx
    · cases hs
  | wantsList op l =>
    simp only [PollEngine.advance] at hs
    split at hs
    · cases hs
      apply h.moved htoken rfl rfl (fun x hx => hx) fun e => ⟨rfl, rfl⟩
      exact hset (some (.hasList op l)) rfl rfl fun x hx => hx
    · cases hs
  | hasList op l =>
    cases hs
    have hperform := h.perform ht rfl (htoken.congr rfl rfl) hok
    exact hperform.moved htoken rfl rfl (fun x hx => hx) (fun e => ⟨rfl, rfl⟩) fun x hx => .inl hx
  | releasing op begins =>
    cases hs
    apply h.moved htoken rfl rfl (fun x hx => hx) fun e => ⟨rfl, rfl⟩
    apply hset (if begins then some (.begins op.event) else none) rfl rfl
    intro x hx
    cases begins <;> cases hx
  | begins e =>
    cases hs
    apply h.moved htoken rfl rfl fun x hx => hx
    · intro e'
      by_cases he' : e' = e
      · simp [PollEngine.setTask, PollEngine.setEvent, PollEngine.use, he']
      · simp [PollEngine.setTask, PollEngine.setEvent, PollEngine.use, he']
    · apply hset none rfl rfl
      intro x hx
      cases hx

/-- A worker begins an operation, which is not an expiry. -/
theorem ExpiryInv.start (h : ExpiryInv s) {i : ℕ} {op : EngineOp} (htoken : EventTokenInv s')
    (hs : pollStep s (.start i op) = some s') : ExpiryInv s' := by
  have hexpiring : ∀ op : EngineOp, op.expires = none → s'.poll = s.poll →
      s'.task = (s.setTask (.worker i) (some (.wants op))).task →
      ∀ x, s'.Expiring x → s.Expiring x ∨ x ∈ s'.expired := by
    intro op hop hpoll htask x hx
    rcases hx with ⟨u, hu⟩ | hx
    · rw [htask] at hu
      by_cases hut : u = .worker i
      · rw [show (s.setTask (.worker i) (some (.wants op))).task u = some (.wants op) from if_pos hut] at hu
        rw [show (some (LockTask.wants op)).bind LockTask.expires = op.expires from rfl, hop] at hu
        cases hu
      · rw [show (s.setTask (.worker i) (some (.wants op))).task u = s.task u from if_neg hut] at hu
        exact .inl (.inl ⟨u, hu⟩)
    · exact .inl (.inr (hpoll ▸ hx))
  simp only [pollStep] at hs
  split at hs
  next hmay =>
    cases op with
    | submit | kill =>
      cases hs
      apply h.moved htoken rfl rfl (fun x hx => hx) fun e => ⟨rfl, rfl⟩
      exact hexpiring _ rfl rfl rfl
    | ready | expire => cases hmay.2.2
    | handle e =>
      cases hs
      apply h.moved htoken rfl rfl fun x hx => hx
      · intro e'
        by_cases he' : e' = e
        · simp [PollEngine.setTask, PollEngine.setEvent, he']
        · simp [PollEngine.setTask, PollEngine.setEvent, he']
      · exact hexpiring _ rfl rfl rfl
  next => cases hs

/-- The poll thread takes an operation of one of its loops. -/
theorem expiring_poll (op : EngineOp) {x : EventRef × ℕ} (hx : s'.Expiring x)
    (htask : s'.task = (s.setTask .poll (some (.wants op))).task) :
    s.Expiring x ∨ op.expires = some x ∨ x ∈ s'.poll.expires := by
  rcases hx with ⟨u, hu⟩ | hx
  · rw [htask] at hu
    by_cases hut : u = .poll
    · rw [show (s.setTask .poll (some (.wants op))).task u = some (.wants op) from if_pos hut] at hu
      exact .inr (.inl hu)
    · rw [show (s.setTask .poll (some (.wants op))).task u = s.task u from if_neg hut] at hu
      exact .inl (.inl ⟨u, hu⟩)
  · exact .inr (.inr hx)

/-- Another loop of the poll thread, with nothing to expire that was not there before. -/
theorem expiring_loop (htask : s'.task = s.task) (hpoll : ∀ x ∈ s'.poll.expires, x ∈ s.poll.expires ∨ x ∈ s'.expired)
    (x : EventRef × ℕ) (hx : s'.Expiring x) : s.Expiring x ∨ x ∈ s'.expired := by
  rcases hx with ⟨u, hu⟩ | hx
  · exact .inl (.inl ⟨u, htask ▸ hu⟩)
  · exact (hpoll x hx).imp_left .inr

/-- The poll thread goes on with its loops; what it takes off a list has been on it. -/
theorem ExpiryInv.next (h : ExpiryInv s) (htoken : EventTokenInv s') (hs : s.pollNext = some s') : ExpiryInv s' := by
  have hexpires : ∀ x ∈ s.poll.expires, x ∈ s.expired := fun x hx => h.expiring x (.inr hx)
  simp only [PollEngine.pollNext] at hs
  split at hs
  next => cases hs
  next =>
    cases hs
    apply h.moved htoken rfl rfl (fun x hx => hx) fun e => ⟨rfl, rfl⟩
    exact expiring_loop rfl fun x hx => by cases hx
  next e events es _ =>
    cases hs
    apply h.moved htoken rfl rfl (fun x hx => hx) fun e => ⟨rfl, rfl⟩
    intro x hx
    rcases expiring_poll (s := s) (.ready e events) hx rfl with hx | hx | hx
    · exact .inl hx
    · cases hx
    · cases hx
  next =>
    split at hs
    · cases hs
      apply h.moved htoken rfl rfl (fun x hx => hx) fun e => ⟨rfl, rfl⟩
      exact expiring_loop rfl fun x hx => by cases hx
    · cases hs
  next hp =>
    cases hs
    apply h.moved htoken rfl rfl (fun x hx => hx) fun e => ⟨rfl, rfl⟩
    exact expiring_loop rfl fun x hx => .inl (by rw [hp]; exact hx)
  next hp =>
    split at hs
    · cases hs
      apply h.moved htoken rfl rfl (fun x hx => hx) fun e => ⟨rfl, rfl⟩
      exact expiring_loop rfl fun x hx => .inl (by rw [hp]; exact hx)
    · cases hs
  next l done e todo hp =>
    cases hs
    apply h.moved htoken rfl rfl fun x hx => List.mem_cons_of_mem _ hx
    · intro e'
      by_cases he' : e' = e
      · simp [PollEngine.detach, PollEngine.setSlock, he']
      · simp [PollEngine.detach, PollEngine.setSlock, he']
    · refine expiring_loop rfl ?_
      intro x hx
      rcases List.mem_append.mp hx with hx | hx
      · exact .inl (by rw [hp]; exact hx)
      · exact .inr (by rw [List.mem_singleton.mp hx]; exact List.mem_cons_self)
  next hp =>
    cases hs
    apply h.moved htoken rfl rfl (fun x hx => hx) fun e => ⟨rfl, rfl⟩
    exact expiring_loop rfl fun x hx => by cases hx
  next e m es hp =>
    cases hs
    have hmem : ∀ x ∈ (e, m) :: es, x ∈ s.expired := by
      intro x hx
      apply hexpires x
      rw [hp]
      exact hx
    apply h.moved htoken rfl rfl (fun x hx => hx) fun e => ⟨rfl, rfl⟩
    intro x hx
    rcases expiring_poll (s := s) (.expire e m) hx rfl with hx | hx | hx
    · exact .inl hx
    · cases hx
      exact .inr (hmem _ List.mem_cons_self)
    · exact .inr (hmem x (List.mem_cons_of_mem _ hx))

/-- **A step keeps the expiry right (proved)** when the second loop finds what was on the list. -/
theorem pollStep_expiryInv (h : ExpiryInv s) {m : EngineMove} (hok : ExpiresOnly s m) (hs : pollStep s m = some s') :
    ExpiryInv s' := by
  have htoken := pollStep_eventTokenInv h.token hs
  cases m with
  | start i op => exact h.start htoken hs
  | advance t =>
    obtain ⟨task, ht, hs⟩ := Option.bind_eq_some_iff.mp hs
    apply h.advance ht htoken _ hs
    intro x hx
    apply hok x
    rw [ht]
    exact hx
  | next =>
    simp only [pollStep] at hs
    split at hs
    next => exact h.next htoken hs
    next => cases hs
  | fetch | tick =>
    simp only [pollStep] at hs
    split at hs
    next =>
      cases hs
      apply h.moved htoken rfl rfl (fun x hx => hx) fun e => ⟨rfl, rfl⟩
      exact expiring_loop rfl fun x hx => by cases hx
    next => cases hs
  | free =>
    simp only [pollStep] at hs
    split at hs
    next =>
      cases hs
      apply h.moved htoken rfl rfl (fun x hx => hx) fun e => ⟨rfl, rfl⟩
      exact expiring_loop rfl fun x hx => .inl hx
    next => cases hs

theorem expiryInv_new (workers : ℕ) : ExpiryInv (PollEngine.new workers) where
  token := eventTokenInv_new workers
  timesOut e n hn := by
    rcases hn with hn | hn <;> cases hn
  error e he := by cases he
  expiring x hx := by
    rcases hx with ⟨t, ht⟩ | hx
    · cases ht
    · cases hx

/-- **Only what was on a list that expired times out (proved),** in runs in which the second loop finds the
submissions that the first one has taken off. -/
theorem reachable_timesOut {workers : ℕ}
    (h : ReachableVia (enabled pollStep) ExpiresOnly (PollEngine.new workers) s) : TimesOut s := by
  have hinv : ExpiryInv s := h.invariant (expiryInv_new workers) fun _ _ _ hi hok hs => pollStep_expiryInv hi hok hs
  exact hinv.timesOut

end Expiry

/-- A submission that times out, and nothing between the two loops. -/
theorem reachable_timesOut_expired :
    ∃ s, runFrom pollStep (PollEngine.new 1) [.start 0 (.submit ⟨0, .receive⟩ .readable 0 0 (some 7)),
      .advance (.worker 0), .advance (.worker 0), .advance (.worker 0), .advance (.worker 0), .tick 7, .next, .next,
      .next, .next, .next, .advance .poll] = some s ∧
      (⟨0, .receive⟩, 1, Errno.etimedout) ∈ s.completed ∧ TimesOut s := by
  have hrun : ∃ s, runFrom (guarded ExpiresOnly pollStep) (PollEngine.new 1)
      [.start 0 (.submit ⟨0, .receive⟩ .readable 0 0 (some 7)), .advance (.worker 0), .advance (.worker 0),
        .advance (.worker 0), .advance (.worker 0), .tick 7, .next, .next, .next, .next, .next, .advance .poll] =
          some s ∧
      runFrom pollStep (PollEngine.new 1) [.start 0 (.submit ⟨0, .receive⟩ .readable 0 0 (some 7)),
        .advance (.worker 0), .advance (.worker 0), .advance (.worker 0), .advance (.worker 0), .tick 7, .next, .next,
        .next, .next, .next, .advance .poll] = some s ∧
      (⟨0, .receive⟩, 1, Errno.etimedout) ∈ s.completed := ⟨_, rfl, rfl, by decide⟩
  obtain ⟨s, hs, hplain, hdone⟩ := hrun
  exact ⟨s, hplain, hdone, reachable_timesOut (reachableVia_of_runFrom hs)⟩

/-- **A submission times out that was on no list (proved):** the event is taken off the list that expires, killed, and
submitted again before the second loop. -/
theorem timesOut_fails : ¬ ∀ (workers : ℕ) (s : PollEngine),
    Reachable (enabled pollStep) (PollEngine.new workers) s → TimesOut s := by
  intro h
  have hrun : ∃ s, runFrom pollStep (PollEngine.new 1) [.start 0 (.submit ⟨0, .receive⟩ .readable 0 0 (some 7)),
      .advance (.worker 0), .advance (.worker 0), .advance (.worker 0), .advance (.worker 0),
      .tick 7, .next, .next, .next, .next,
      .start 0 (.kill ⟨0, .receive⟩), .advance (.worker 0), .advance (.worker 0), .advance (.worker 0),
      .start 0 (.handle ⟨0, .receive⟩), .advance (.worker 0), .advance (.worker 0),
      .start 0 (.submit ⟨0, .receive⟩ .readable 0 0 none), .advance (.worker 0), .advance (.worker 0),
      .next, .advance .poll] = some s ∧
      (⟨0, .receive⟩, 2, Errno.etimedout) ∈ s.completed ∧ s.expired = [(⟨0, .receive⟩, 1)] :=
    ⟨_, rfl, by decide, rfl⟩
  obtain ⟨s, hs, hdone, hexpired⟩ := hrun
  have hmem := h 1 s (reachable_of_runFrom hs) _ _ (.inl hdone)
  rw [hexpired] at hmem
  exact absurd hmem (by decide)

end Connio
