import Connio.PollLists

/-!
# The `SOCK`s that the poll thread refers to

A consumer frees a conn and its `SOCK` when none of its events is submitted, whatever the poll thread has in its array
or on its way through a list that has expired.

* `PollState.refs` — the events that the poll thread has yet to look at, and that may have been completed since;
* `FreesUnreferenced` — a `SOCK` is freed when the poll thread does not refer to it;
* `LifetimeInv`, `pollStep_lifetimeInv` — **PROVED**: what is referred to is there;
* `reachable_outlives` — **PROVED**: the poll thread uses nothing that has been freed, in runs with that;
* `outlives_fails` — **PROVED**: an event of the array, completed by a kill and freed before the poll thread sees it.
-/

namespace Connio

open Connio.Lib

/-- The events of the array, and those that have been taken off a list. -/
def PollState.refs : PollState → List EventRef
  | entries es => es.map Prod.fst
  | detaching _ done _ _ => done.map Prod.fst
  | expiring es => es.map Prod.fst
  | top | wantsTick _ => []

/-- **A `SOCK` is freed only when the poll thread does not refer to it.** -/
def FreesUnreferenced (s : PollEngine) : EngineMove → Prop
  | .free cs => (∀ e ∈ s.poll.refs, e.cs ≠ cs) ∧ ∀ task ∈ s.task .poll, task.cs ≠ cs
  | _ => True

instance (s : PollEngine) (m : EngineMove) : Decidable (FreesUnreferenced s m) :=
  match m with
  | .free cs => inferInstanceAs (Decidable ((∀ e ∈ s.poll.refs, e.cs ≠ cs) ∧ ∀ task ∈ s.task .poll, task.cs ≠ cs))
  | .start _ _ | .advance _ | .fetch _ | .tick _ | .next => instDecidableTrue

/-- **The invariant of what has been freed.** -/
structure LifetimeInv (s : PollEngine) : Prop where
  lists : ListInv s
  unlinked : ∀ e, s.freed e.cs = true → (s.event e).se.arg = none
  task : ∀ t task, s.task t = some task → s.freed task.cs = false
  refs : ∀ e ∈ s.poll.refs, s.freed e.cs = false
  usedFreed : s.usedFreed = false

section Lifetime

variable {s s' : PollEngine}

/-- An event that is linked has its `SOCK`. -/
theorem LifetimeInv.freed_of_linked (h : LifetimeInv s) {e : EventRef} (he : (s.event e).se.arg.isSome = true) :
    s.freed e.cs = false := by
  by_contra hfreed
  rw [h.unlinked e (by simpa using hfreed)] at he
  cases he

/-- The thread that uses an event uses one that is there. -/
theorem LifetimeInv.used (h : LifetimeInv s) (t : EngineThread) {e : EventRef} (he : s.freed e.cs = false) :
    (s.use t e).usedFreed = false := by
  simp [PollEngine.use, h.usedFreed, he]

/-- A step that frees nothing, and in which the events of freed `SOCK`s stay. -/
theorem LifetimeInv.keep (h : LifetimeInv s) (hlists : ListInv s') (hfreed : s'.freed = s.freed)
    (hevent : ∀ e, s.freed e.cs = true → (s'.event e).se.arg = (s.event e).se.arg)
    (htask : ∀ t task, s'.task t = some task → s.freed task.cs = false)
    (hrefs : ∀ e ∈ s'.poll.refs, s.freed e.cs = false) (hused : s'.usedFreed = false) : LifetimeInv s' where
  lists := hlists
  unlinked e he := by
    rw [hfreed] at he
    exact (hevent e he).trans (h.unlinked e he)
  task t task ht := hfreed ▸ htask t task ht
  refs e he := hfreed ▸ hrefs e he
  usedFreed := hused

/-- Another task of a thread. -/
theorem LifetimeInv.setTask (h : LifetimeInv s) (t : EngineThread) (task' : Option LockTask)
    (htask : s'.task = (s.setTask t task').task) (hnew : ∀ task, task' = some task → s.freed task.cs = false)
    (u : EngineThread) (task : LockTask) (hu : s'.task u = some task) : s.freed task.cs = false := by
  rw [htask] at hu
  by_cases hut : u = t
  · rw [hut, setTask_self] at hu
    exact hnew task hu
  · rw [setTask_ne hut] at hu
    exact h.task u task hu

/-- The task that comes has its `SOCK`. -/
theorem freed_task {task' : LockTask} (hthere : s.freed task'.cs = false) (task : LockTask)
    (htask : some task' = some task) : s.freed task.cs = false := by
  rw [← Option.some.inj htask]
  exact hthere

/-- An event of another `SOCK` does not change. -/
theorem setEvent_arg {e e' : EventRef} {ev : TimedEvent} (he : s.freed e.cs = false) (he' : s.freed e'.cs = true) :
    ((s.setEvent e ev).event e').se.arg = (s.event e').se.arg := by
  have hne : e' ≠ e := by
    intro hee
    rw [hee, he] at he'
    cases he'
  rw [show (s.setEvent e ev).event e' = s.event e' from if_neg hne]

/-- A thread goes on with its operation: the `SOCK` is there. -/
theorem LifetimeInv.advance (h : LifetimeInv s) {t : EngineThread} {task : LockTask} (ht : s.task t = some task)
    (hlists : ListInv s') (hs : s.advance t task = some s') : LifetimeInv s' := by
  have hthere : s.freed task.cs = false := h.task t task ht
  cases task with
  | wants op =>
    have hused := h.used t hthere
    simp only [PollEngine.advance] at hs
    split at hs
    · split at hs
      next l _ =>
        cases hs
        exact h.keep hlists rfl (fun _ _ => rfl) (h.setTask t _ rfl (freed_task hthere)) h.refs hused
      next =>
        cases hs
        exact h.keep hlists rfl (fun e he => setEvent_arg hthere he) (h.setTask t _ rfl (freed_task hthere)) h.refs hused
    · cases hs
  | wantsList op l =>
    simp only [PollEngine.advance] at hs
    split at hs
    · cases hs
      exact h.keep hlists rfl (fun _ _ => rfl) (h.setTask t _ rfl (freed_task hthere)) h.refs h.usedFreed
    · cases hs
  | hasList op l =>
    cases hs
    exact h.keep hlists rfl (fun e he => setEvent_arg hthere he) (h.setTask t _ rfl (freed_task hthere)) h.refs h.usedFreed
  | releasing op begins =>
    cases hs
    refine h.keep hlists rfl (fun _ _ => rfl) (h.setTask t _ rfl ?_) h.refs h.usedFreed
    intro task htask
    cases begins with
    | false => cases htask
    | true =>
      cases htask
      exact hthere
  | begins e =>
    cases hs
    refine h.keep hlists rfl (fun e' he' => setEvent_arg hthere he') (h.setTask t _ rfl ?_) h.refs (h.used t hthere)
    intro task htask
    cases htask

/-- A worker begins an operation on a `SOCK` that is there. -/
theorem LifetimeInv.start (h : LifetimeInv s) {i : ℕ} {op : EngineOp} (hlists : ListInv s')
    (hs : pollStep s (.start i op) = some s') : LifetimeInv s' := by
  simp only [pollStep] at hs
  split at hs
  next hmay =>
    have hthere : s.freed op.event.cs = false := by
      cases op with
      | submit | kill => exact Bool.not_inj hmay.2.2
      | ready | expire => cases hmay.2.2
      | handle e =>
        have hbegun : (s.event e).token = .begun := of_decide_eq_true hmay.2.2
        exact h.freed_of_linked ((h.lists.tokens.sound e).linked.mpr (by rw [hbegun]; simp))
    have hnew : ∀ task, some (LockTask.wants op) = some task → s.freed task.cs = false := freed_task hthere
    cases op with
    | submit | kill | ready | expire =>
      cases hs
      exact h.keep hlists rfl (fun _ _ => rfl) (h.setTask (.worker i) _ rfl hnew) h.refs h.usedFreed
    | handle e =>
      cases hs
      exact h.keep hlists rfl (fun e' he' => setEvent_arg hthere he') (h.setTask (.worker i) _ rfl hnew) h.refs
        h.usedFreed
  next => cases hs

/-- The poll thread goes on with its loops: what it refers to is there, and so is what is still on a list. -/
theorem LifetimeInv.next (h : LifetimeInv s) (hlists : ListInv s') (hs : s.pollNext = some s') : LifetimeInv s' := by
  have htodo : ∀ l done e todo has, s.poll = .detaching l done (e :: todo) has → s.freed e.cs = false := by
    intro l done e todo has hp
    have hlist := (h.lists.todo (l, e :: todo) (by rw [hp]; rfl)).2.2 e List.mem_cons_self
    exact h.freed_of_linked (h.lists.linked hlist)
  simp only [PollEngine.pollNext] at hs
  split at hs
  next => cases hs
  next =>
    cases hs
    exact h.keep hlists rfl (fun _ _ => rfl) h.task (fun e he => by cases he) h.usedFreed
  next e events es hp =>
    cases hs
    have hrefs := h.refs
    rw [hp] at hrefs
    have hthere := hrefs e List.mem_cons_self
    exact h.keep hlists rfl (fun _ _ => rfl) (h.setTask .poll _ rfl (freed_task hthere))
      (fun e' he' => hrefs e' (List.mem_cons_of_mem _ he')) (h.used .poll hthere)
  next =>
    split at hs
    · cases hs
      exact h.keep hlists rfl (fun _ _ => rfl) h.task (fun e he => by cases he) h.usedFreed
    · cases hs
  next hp =>
    cases hs
    refine h.keep hlists rfl (fun _ _ => rfl) h.task ?_ h.usedFreed
    intro e he
    apply h.refs e
    rw [hp]
    exact he
  next l done e todo hp =>
    split at hs
    · cases hs
      refine h.keep hlists rfl (fun _ _ => rfl) h.task ?_ (h.used .poll (htodo l done e todo _ hp))
      intro e' he'
      apply h.refs e'
      rw [hp]
      exact he'
    · cases hs
  next l done e todo hp =>
    cases hs
    have hthere := htodo l done e todo _ hp
    refine h.keep hlists rfl ?_ h.task ?_ h.usedFreed
    · intro e' he'
      have hne : e' ≠ e := by
        intro hee
        rw [hee, hthere] at he'
        cases he'
      show (if e' = e then _ else s.event e').se.arg = _
      rw [if_neg hne]
    · intro e' he'
      rw [PollState.refs, List.map_append, List.mem_append] at he'
      rcases he' with he' | he'
      · apply h.refs e'
        rw [hp]
        exact he'
      · rw [List.mem_singleton.mp he']
        exact hthere
  next =>
    cases hs
    exact h.keep hlists rfl (fun _ _ => rfl) h.task (fun e he => by cases he) h.usedFreed
  next e m es hp =>
    cases hs
    have hrefs := h.refs
    rw [hp] at hrefs
    have hthere := hrefs e List.mem_cons_self
    exact h.keep hlists rfl (fun _ _ => rfl) (h.setTask .poll _ rfl (freed_task hthere))
      (fun e' he' => hrefs e' (List.mem_cons_of_mem _ he')) (h.used .poll hthere)

/-- **A step keeps what is referred to (proved)** when it frees only what the poll thread does not refer to. -/
theorem pollStep_lifetimeInv (h : LifetimeInv s) {m : EngineMove} (hok : FreesUnreferenced s m)
    (hs : pollStep s m = some s') : LifetimeInv s' := by
  have hlists := pollStep_listInv h.lists hs
  cases m with
  | start i op => exact h.start hlists hs
  | advance t =>
    obtain ⟨task, ht, hs⟩ := Option.bind_eq_some_iff.mp hs
    exact h.advance ht hlists hs
  | next =>
    simp only [pollStep] at hs
    split at hs
    next => exact h.next hlists hs
    next => cases hs
  | fetch es =>
    simp only [pollStep] at hs
    split at hs
    next hmay =>
      cases hs
      refine h.keep hlists rfl (fun _ _ => rfl) h.task ?_ h.usedFreed
      intro e he
      -- an event that `epoll_wait` reports is in the engine, hence linked
      obtain ⟨x, hx, hxe⟩ := List.mem_map.mp he
      have hengine := (h.lists.tokens.sound x.1).engine.mp (hmay.2.2 x hx)
      rw [← hxe]
      exact h.freed_of_linked ((h.lists.tokens.sound x.1).linked.mpr (by rw [hengine]; simp))
    next => cases hs
  | tick l =>
    simp only [pollStep] at hs
    split at hs
    next =>
      cases hs
      exact h.keep hlists rfl (fun _ _ => rfl) h.task (fun e he => by cases he) h.usedFreed
    next => cases hs
  | free cs =>
    simp only [pollStep] at hs
    split at hs
    next hmay =>
      cases hs
      obtain ⟨_, hunlinked, hworkers⟩ := hmay
      obtain ⟨hrefs, hpoll⟩ := hok
      have hfreed : ∀ cs', cs' ≠ cs → s.freed cs' = false → (decide (cs' = cs) || s.freed cs') = false := by
        intro cs' hne hcs'
        simp [hne, hcs']
      refine ⟨hlists, ?_, ?_, ?_, h.usedFreed⟩
      · intro e he
        rcases Bool.or_eq_true _ _ ▸ he with he | he
        · have hcs : e.cs = cs := of_decide_eq_true he
          rw [← hcs] at hunlinked
          exact hunlinked e.k
        · exact h.unlinked e he
      · intro t task ht
        apply hfreed _ _ (h.task t task ht)
        cases t with
        | poll => exact hpoll task ht
        | worker i =>
          by_cases hi : i < s.workers
          · exact hworkers i hi task ht
          · rw [h.lists.locks.idle i (by omega)] at ht
            cases ht
      · exact fun e he => hfreed _ (hrefs e he) (h.refs e he)
    next => cases hs

theorem lifetimeInv_new (workers : ℕ) : LifetimeInv (PollEngine.new workers) where
  lists := listInv_new workers
  unlinked e he := by cases he
  task t task ht := by cases ht
  refs e he := by cases he
  usedFreed := rfl

/-- **The poll thread uses nothing that has been freed (proved),** in runs in which a `SOCK` is freed only when the
poll thread does not refer to it. -/
theorem reachable_outlives {workers : ℕ}
    (h : ReachableVia (enabled pollStep) FreesUnreferenced (PollEngine.new workers) s) : s.usedFreed = false := by
  have hinv : LifetimeInv s := h.invariant (lifetimeInv_new workers) fun _ _ _ hi hok hs =>
    pollStep_lifetimeInv hi hok hs
  exact hinv.usedFreed

end Lifetime

/-- An event that is found ready, handled, and freed with its `SOCK`. -/
theorem reachable_outlives_freed :
    ∃ s, runFrom pollStep (PollEngine.new 1) [.start 0 (.submit ⟨0, .receive⟩ .readable 0 0 none),
      .advance (.worker 0), .advance (.worker 0), .fetch [(⟨0, .receive⟩, .ready)], .next, .advance .poll,
      .advance .poll, .advance .poll, .start 0 (.handle ⟨0, .receive⟩), .advance (.worker 0), .advance (.worker 0),
      .free 0] = some s ∧ s.freed 0 = true ∧ s.usedFreed = false := by
  have hrun : ∃ s, runFrom (guarded FreesUnreferenced pollStep) (PollEngine.new 1)
      [.start 0 (.submit ⟨0, .receive⟩ .readable 0 0 none), .advance (.worker 0), .advance (.worker 0),
        .fetch [(⟨0, .receive⟩, .ready)], .next, .advance .poll, .advance .poll, .advance .poll,
        .start 0 (.handle ⟨0, .receive⟩), .advance (.worker 0), .advance (.worker 0), .free 0] = some s ∧
      runFrom pollStep (PollEngine.new 1) [.start 0 (.submit ⟨0, .receive⟩ .readable 0 0 none),
        .advance (.worker 0), .advance (.worker 0), .fetch [(⟨0, .receive⟩, .ready)], .next, .advance .poll,
        .advance .poll, .advance .poll, .start 0 (.handle ⟨0, .receive⟩), .advance (.worker 0),
        .advance (.worker 0), .free 0] = some s ∧ s.freed 0 = true := ⟨_, rfl, rfl, rfl⟩
  obtain ⟨s, hs, hplain, hfreed⟩ := hrun
  exact ⟨s, hplain, hfreed, reachable_outlives (reachableVia_of_runFrom hs)⟩

/-- **The poll thread uses a `SOCK` that has been freed (proved):** the event is in its array when it is killed and
handled, and the consumer frees the conn. -/
theorem outlives_fails : ¬ ∀ (workers : ℕ) (s : PollEngine),
    Reachable (enabled pollStep) (PollEngine.new workers) s → s.usedFreed = false := by
  intro h
  have hrun : ∃ s, runFrom pollStep (PollEngine.new 1) [.start 0 (.submit ⟨0, .receive⟩ .readable 0 0 none),
      .advance (.worker 0), .advance (.worker 0), .fetch [(⟨0, .receive⟩, .ready)],
      .start 0 (.kill ⟨0, .receive⟩), .advance (.worker 0), .advance (.worker 0), .advance (.worker 0),
      .start 0 (.handle ⟨0, .receive⟩), .advance (.worker 0), .advance (.worker 0), .free 0, .next] = some s ∧
      s.usedFreed = true := ⟨_, rfl, rfl⟩
  obtain ⟨s, hs, hused⟩ := hrun
  rw [h 1 s (reachable_of_runFrom hs)] at hused
  cases hused

end Connio
