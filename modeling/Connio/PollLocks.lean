import Connio.Lib.Locks
import Connio.Lib.Transition
import Connio.PollEngine

/-!
# The order of the locks

The threads of `PollEngine` that wait for each other.  A thread that submits or kills an event takes the lock of a
timeout list while it has the `slock`; the poll thread takes each `slock` while it has the lock of the list that
expires.

* `PollEngine.holdsSlock`, `PollEngine.holdsListLock` — the locks of a thread, by where it is;
* `LockOrderly` — no thread needs a list that the poll thread has while it has a `slock` the poll thread needs;
* `LockInv`, `pollStep_lockInv` — **PROVED**: each lock is with the thread that is where it has it;
* `LockOrder`, `pollStep_lockOrder` — **PROVED**: the two never meet in orderly runs;
* `lockOrder_lost`, `reachable_lost` — **PROVED**: in other runs they meet, and neither ever gets on;
* `waitsFor_rank` — **PROVED**: a thread waits for one of lower rank;
* `reachable_noDeadlock` — **PROVED**: no thread waits for itself in orderly runs;
* `noDeadlock_fails` — **PROVED**: a timeout and a kill that wait for each other.
-/

namespace Connio

open Connio.Lib

/-! ### Who has a lock -/

/-- The `SOCK` whose `slock` a thread has. -/
def LockTask.slock : LockTask → Option ℕ
  | wantsList op _ | hasList op _ | releasing op _ => some op.event.cs
  | wants _ | begins _ => none

/-- The list whose lock a thread has. -/
def LockTask.listLock : LockTask → Option ℕ
  | hasList _ l => some l
  | _ => none

/-- The operation of a thread that is about to take a `slock`. -/
def LockTask.wanted : LockTask → Option EngineOp
  | wants op => some op
  | _ => none

/-- The list whose lock the poll thread is about to take. -/
def PollState.ticking : PollState → Option ℕ
  | wantsTick l => some l
  | _ => none

/-- The list whose lock the poll thread has, and the events that are still to be taken off. -/
def PollState.holding : PollState → Option (ℕ × List EventRef)
  | detaching l _ todo _ => some (l, todo)
  | _ => none

/-- The `SOCK` whose `slock` the poll thread has in the first loop. -/
def PollState.slock : PollState → Option ℕ
  | detaching _ _ (e :: _) true => some e.cs
  | _ => none

namespace PollEngine

variable (s : PollEngine)

/-- What the poll thread does between two operations. -/
def loop : EngineThread → PollState
  | .poll => s.poll
  | .worker _ => .top

def holdsSlock (t : EngineThread) : Option ℕ := (s.task t).elim (s.loop t).slock LockTask.slock

def holdsListLock (t : EngineThread) : Option ℕ :=
  (s.task t).elim ((s.loop t).holding.map Prod.fst) LockTask.listLock

/-- The thread `t` has the `slock` of a `SOCK` with one of these events, and is about to take the lock of the list. -/
def needsBoth (l : ℕ) (es : List EventRef) (t : EngineThread) : Prop :=
  ∃ op, s.task t = some (.wantsList op l) ∧ ∃ e ∈ es, e.cs = op.event.cs

instance (l : ℕ) (es : List EventRef) (t : EngineThread) : Decidable (s.needsBoth l es t) :=
  match h : s.task t with
  | some (.wantsList op l') =>
    decidable_of_iff (l' = l ∧ ∃ e ∈ es, e.cs = op.event.cs) (by
      simp only [needsBoth, h, Option.some.injEq, LockTask.wantsList.injEq]
      constructor
      · intro ⟨hl, he⟩
        exact ⟨op, ⟨rfl, hl⟩, he⟩
      · intro ⟨op', ⟨hop, hl⟩, he⟩
        exact ⟨hl, hop ▸ he⟩)
  | none | some (.wants _) | some (.hasList _ _) | some (.releasing _ _) | some (.begins _) =>
    isFalse (by simp [needsBoth, h])

end PollEngine

/-- **The poll thread and another one do not get in each other's way:** the poll thread takes the lock of a list only
when no thread that has the `slock` of a `SOCK` with an event on it is about to take that lock; and a thread takes a
`slock` to go on to a list only when the poll thread does not have that list with an event of the `SOCK` before it. -/
def LockOrderly (s : PollEngine) : EngineMove → Prop
  | .next => ∀ l ∈ s.poll.ticking, ∀ i < s.workers, ¬ s.needsBoth l (s.list l) (.worker i)
  | .advance t =>
    ∀ op ∈ (s.task t).bind LockTask.wanted, ∀ x ∈ s.poll.holding,
      op.needs (s.event op.event) = some x.1 → ∀ e ∈ x.2, e.cs ≠ op.event.cs
  | _ => True

instance (s : PollEngine) (m : EngineMove) : Decidable (LockOrderly s m) :=
  match m with
  | .next => inferInstanceAs (Decidable (∀ l ∈ s.poll.ticking, ∀ i < s.workers, ¬ s.needsBoth l _ _))
  | .advance t => inferInstanceAs (Decidable (∀ op ∈ (s.task t).bind LockTask.wanted, ∀ x ∈ s.poll.holding, _ → _))
  | .start _ _ | .fetch _ | .tick _ | .free _ => instDecidableTrue

/-- **The invariant of the locks.** -/
structure LockInv (s : PollEngine) : Prop where
  slock : Owned s.slock s.holdsSlock
  listLock : Owned s.listLock s.holdsListLock
  /-- the poll thread has an operation only in the loops that have no lock -/
  loop : s.task .poll ≠ none → s.poll.holding = none ∧ s.poll.ticking = none
  idle : ∀ i, s.workers ≤ i → s.task (.worker i) = none

/-- The poll thread and another one do not wait for each other. -/
def LockOrder (s : PollEngine) : Prop :=
  ∀ x, s.poll.holding = some x → ∀ t, ¬ s.needsBoth x.1 x.2 t

section Locks

variable {s s' : PollEngine}

theorem holdsSlock_task {t : EngineThread} {task : LockTask} (htask : s.task t = some task) :
    s.holdsSlock t = task.slock := by
  rw [PollEngine.holdsSlock, htask]
  rfl

theorem holdsListLock_task {t : EngineThread} {task : LockTask} (htask : s.task t = some task) :
    s.holdsListLock t = task.listLock := by
  rw [PollEngine.holdsListLock, htask]
  rfl

theorem holdsSlock_idle {t : EngineThread} (htask : s.task t = none) : s.holdsSlock t = (s.loop t).slock := by
  rw [PollEngine.holdsSlock, htask]
  rfl

theorem holdsListLock_idle {t : EngineThread} (htask : s.task t = none) :
    s.holdsListLock t = (s.loop t).holding.map Prod.fst := by
  rw [PollEngine.holdsListLock, htask]
  rfl

/-- The poll thread without a list has no `slock` either. -/
theorem PollState.slock_none {p : PollState} (h : p.holding = none) : p.slock = none := by
  cases p with
  | detaching l done todo has => cases h
  | top | entries | wantsTick | expiring => rfl

/-- In its loops a thread with an operation has no lock. -/
theorem LockInv.loop_none (h : LockInv s) {t : EngineThread} {task : LockTask} (ht : s.task t = some task) :
    (s.loop t).slock = none ∧ (s.loop t).holding = none := by
  cases t with
  | poll =>
    have hholding := (h.loop (by simp [ht])).1
    exact ⟨PollState.slock_none hholding, hholding⟩
  | worker i => exact ⟨rfl, rfl⟩

/-- A step of the thread `t`, which has the locks `x` and `y` after it. -/
theorem LockInv.moved (h : LockInv s) (t : EngineThread) {x y : Option ℕ} (hworkers : s'.workers = s.workers)
    (htask : ∀ u, u ≠ t → s'.task u = s.task u) (hloop : ∀ u, u ≠ t → s'.loop u = s.loop u)
    (hx : s'.holdsSlock t = x) (hslock : Owned s'.slock fun u => if u = t then x else s.holdsSlock u)
    (hy : s'.holdsListLock t = y) (hlist : Owned s'.listLock fun u => if u = t then y else s.holdsListLock u)
    (hbusy : s'.task .poll ≠ none → s'.poll.holding = none ∧ s'.poll.ticking = none)
    (hidle : ∀ i, s.workers ≤ i → t = .worker i → s'.task t = none) : LockInv s' where
  slock := by
    have heq : s'.holdsSlock = fun u => if u = t then x else s.holdsSlock u := by
      funext u
      by_cases hu : u = t
      · rw [if_pos hu, hu, hx]
      · rw [if_neg hu, PollEngine.holdsSlock, htask u hu, hloop u hu, PollEngine.holdsSlock]
    rw [heq]
    exact hslock
  listLock := by
    have heq : s'.holdsListLock = fun u => if u = t then y else s.holdsListLock u := by
      funext u
      by_cases hu : u = t
      · rw [if_pos hu, hu, hy]
      · rw [if_neg hu, PollEngine.holdsListLock, htask u hu, hloop u hu, PollEngine.holdsListLock]
    rw [heq]
    exact hlist
  loop := hbusy
  idle i hi := by
    by_cases ht : t = .worker i
    · rw [← ht]
      exact hidle i (hworkers ▸ hi) ht
    · rw [htask _ (Ne.symm ht)]
      exact h.idle i (hworkers ▸ hi)

/-! ### One step -/

theorem setTask_self (t : EngineThread) (task : Option LockTask) : (s.setTask t task).task t = task := if_pos rfl

theorem setTask_ne {t u : EngineThread} (hne : u ≠ t) (task : Option LockTask) :
    (s.setTask t task).task u = s.task u := if_neg hne

/-- A step of a thread that has an operation under way: `s'` is `s` with another task for the thread. -/
theorem LockInv.advanced (h : LockInv s) {t : EngineThread} {task : LockTask} (task' : Option LockTask)
    (ht : s.task t = some task) (hworkers : s'.workers = s.workers) (hpoll : s'.poll = s.poll)
    (htask : s'.task = (s.setTask t task').task)
    (hslock : Owned s'.slock fun u => if u = t then task'.bind LockTask.slock else s.holdsSlock u)
    (hlist : Owned s'.listLock fun u => if u = t then task'.bind LockTask.listLock else s.holdsListLock u) :
    LockInv s' := by
  obtain ⟨hnoslock, hnolist⟩ := h.loop_none ht
  have hself : s'.task t = task' := by rw [htask, setTask_self]
  have hother : ∀ u, u ≠ t → s'.task u = s.task u := by
    intro u hu
    rw [htask, setTask_ne hu]
  have hloop : ∀ u, s'.loop u = s.loop u := by
    intro u
    cases u with
    | poll => exact hpoll
    | worker i => rfl
  refine h.moved t hworkers hother (fun u _ => hloop u) ?_ hslock ?_ hlist ?_ ?_
  · rw [PollEngine.holdsSlock, hself, hloop, hnoslock]
    cases task' <;> rfl
  · rw [PollEngine.holdsListLock, hself, hloop, hnolist]
    cases task' <;> rfl
  · intro hbusy
    rw [hpoll]
    by_cases hpt : EngineThread.poll = t
    · exact h.loop (by rw [hpt, ht]; simp)
    · exact h.loop (hother _ hpt ▸ hbusy)
  · intro i hi hti
    -- a thread that is not there has no operation
    have hidle := h.idle i hi
    rw [← hti, ht] at hidle
    cases hidle

/-- A thread goes on with its operation. -/
theorem LockInv.advance (h : LockInv s) {t : EngineThread} {task : LockTask} (ht : s.task t = some task)
    (hs : s.advance t task = some s') : LockInv s' := by
  have hslock : s.holdsSlock t = task.slock := holdsSlock_task ht
  have hlist : s.holdsListLock t = task.listLock := holdsListLock_task ht
  cases task with
  | wants op =>
    simp only [PollEngine.advance] at hs
    split at hs
    next hfree =>
      split at hs
      next l _ =>
        cases hs
        exact h.advanced (some (.wantsList op l)) ht rfl rfl rfl (h.slock.take hfree hslock) (h.listLock.keep hlist)
      next =>
        cases hs
        exact h.advanced (some (.releasing op _)) ht rfl rfl rfl (h.slock.take hfree hslock) (h.listLock.keep hlist)
    next => cases hs
  | wantsList op l =>
    simp only [PollEngine.advance] at hs
    split at hs
    next hfree =>
      cases hs
      exact h.advanced (some (.hasList op l)) ht rfl rfl rfl (h.slock.keep hslock) (h.listLock.take hfree hlist)
    next => cases hs
  | hasList op l =>
    cases hs
    exact h.advanced (some (.releasing op _)) ht rfl rfl rfl (h.slock.keep hslock) (h.listLock.give hlist)
  | releasing op begins =>
    cases hs
    cases begins with
    | false => exact h.advanced none ht rfl rfl rfl (h.slock.give hslock) (h.listLock.keep hlist)
    | true =>
      exact h.advanced (some (.begins op.event)) ht rfl rfl rfl (h.slock.give hslock) (h.listLock.keep hlist)
  | begins e =>
    cases hs
    exact h.advanced none ht rfl rfl rfl (h.slock.keep hslock) (h.listLock.keep hlist)

/-- A worker begins an operation. -/
theorem LockInv.start (h : LockInv s) {i : ℕ} {op : EngineOp} (hs : pollStep s (.start i op) = some s') :
    LockInv s' := by
  simp only [pollStep] at hs
  split at hs
  next hmay =>
    obtain ⟨hi, ht, _⟩ := hmay
    -- the new state, whatever becomes of the token
    have hnew : s'.workers = s.workers ∧ s'.poll = s.poll ∧ s'.slock = s.slock ∧ s'.listLock = s.listLock ∧
        s'.task = (s.setTask (.worker i) (some (.wants op))).task := by
      cases op with
      | submit | kill | handle | ready | expire =>
        cases hs
        exact ⟨rfl, rfl, rfl, rfl, rfl⟩
    obtain ⟨hworkers, hpoll, hslock, hlist, htask⟩ := hnew
    have hself : s'.task (.worker i) = some (.wants op) := by rw [htask, setTask_self]
    have hother : ∀ u, u ≠ .worker i → s'.task u = s.task u := by
      intro u hu
      rw [htask, setTask_ne hu]
    have hloop : ∀ u, u ≠ .worker i → s'.loop u = s.loop u := by
      intro u _
      cases u with
      | poll => exact hpoll
      | worker j => rfl
    refine h.moved (.worker i) hworkers hother hloop (holdsSlock_task hself) ?_ (holdsListLock_task hself) ?_ ?_ ?_
    · rw [hslock]
      exact h.slock.keep (holdsSlock_idle ht)
    · rw [hlist]
      exact h.listLock.keep (holdsListLock_idle ht)
    · intro hbusy
      rw [hpoll]
      rw [hother _ (by simp)] at hbusy
      exact h.loop hbusy
    · intro j hj hij
      cases hij
      omega
  next => cases hs

/-- The poll thread goes on in its loops, and has the locks `x` and `y` after it. -/
theorem LockInv.looped (h : LockInv s) {x y : Option ℕ} (hworkers : s'.workers = s.workers)
    (hother : ∀ i, s'.task (.worker i) = s.task (.worker i)) (hx : s'.holdsSlock .poll = x)
    (hslock : Owned s'.slock fun u => if u = .poll then x else s.holdsSlock u) (hy : s'.holdsListLock .poll = y)
    (hlist : Owned s'.listLock fun u => if u = .poll then y else s.holdsListLock u)
    (hbusy : s'.task .poll ≠ none → s'.poll.holding = none ∧ s'.poll.ticking = none) : LockInv s' := by
  refine h.moved .poll hworkers ?_ ?_ hx hslock hy hlist hbusy ?_
  · intro u hu
    cases u with
    | poll => exact absurd rfl hu
    | worker i => exact hother i
  · intro u hu
    cases u with
    | poll => exact absurd rfl hu
    | worker i => rfl
  · intro i _ hi
    cases hi

/-- The poll thread goes on with no lock before and after. -/
theorem LockInv.roam (h : LockInv s) (ht : s.task .poll = none) (hpoll : s.poll.holding = none)
    (hworkers : s'.workers = s.workers) (hother : ∀ i, s'.task (.worker i) = s.task (.worker i))
    (hslock : s'.slock = s.slock) (hlist : s'.listLock = s.listLock) (hx : s'.holdsSlock .poll = none)
    (hy : s'.holdsListLock .poll = none)
    (hbusy : s'.task .poll ≠ none → s'.poll.holding = none ∧ s'.poll.ticking = none) : LockInv s' := by
  have hnoslock : s.holdsSlock .poll = none := (holdsSlock_idle ht).trans (PollState.slock_none hpoll)
  have hnolist : s.holdsListLock .poll = none := by
    rw [holdsListLock_idle ht, show s.loop .poll = s.poll from rfl, hpoll]
    rfl
  refine h.looped hworkers hother hx ?_ hy ?_ hbusy
  · rw [hslock]
    exact h.slock.keep hnoslock
  · rw [hlist]
    exact h.listLock.keep hnolist

/-- The poll thread goes on in its loops from one place without a lock to another. -/
theorem LockInv.roamIdle (h : LockInv s) (ht : s.task .poll = none) (hpoll : s.poll.holding = none)
    (hworkers : s'.workers = s.workers) (htask : s'.task = s.task) (hslock : s'.slock = s.slock)
    (hlist : s'.listLock = s.listLock) (hnew : s'.poll.holding = none) : LockInv s' := by
  have ht' : s'.task .poll = none := by
    rw [htask]
    exact ht
  refine h.roam ht hpoll hworkers (fun i => congrFun htask _) hslock hlist ?_ ?_ fun hbusy => absurd ht' hbusy
  · exact (holdsSlock_idle ht').trans (PollState.slock_none hnew)
  · rw [holdsListLock_idle ht', show s'.loop .poll = s'.poll from rfl, hnew]
    rfl

/-- The poll thread goes on with its loops. -/
theorem LockInv.next (h : LockInv s) (ht : s.task .poll = none) (hs : s.pollNext = some s') : LockInv s' := by
  have hloop : s.loop .poll = s.poll := rfl
  have hslock : s.holdsSlock .poll = s.poll.slock := holdsSlock_idle ht
  have hlist : s.holdsListLock .poll = s.poll.holding.map Prod.fst := holdsListLock_idle ht
  have hidle : ∀ s' : PollEngine, s'.task = s.task →
      s'.holdsSlock .poll = s'.poll.slock ∧ s'.holdsListLock .poll = s'.poll.holding.map Prod.fst ∧
        (s'.task .poll ≠ none → s'.poll.holding = none ∧ s'.poll.ticking = none) := by
    intro s' htask
    rw [← htask] at ht
    exact ⟨holdsSlock_idle ht, holdsListLock_idle ht, fun hbusy => absurd ht hbusy⟩
  simp only [PollEngine.pollNext] at hs
  split at hs
  next => cases hs
  next hp =>
    cases hs
    exact h.roamIdle ht (by rw [hp]; rfl) rfl rfl rfl rfl rfl
  next hp =>
    cases hs
    exact h.roam ht (by rw [hp]; rfl) rfl (fun i => setTask_ne (by simp) _) rfl rfl rfl rfl fun _ => ⟨rfl, rfl⟩
  next l hp =>
    split at hs
    next hfree =>
      cases hs
      rw [hp] at hslock hlist
      obtain ⟨hx, hy, hbusy⟩ := hidle { s.setListLock l (some .poll) with
        list := fun l' => if l' = l then [] else s.list l'
        poll := .detaching l [] (s.list l) false } rfl
      refine h.looped rfl (fun _ => rfl) hx ?_ hy (h.listLock.take hfree hlist) hbusy
      exact h.slock.keep (hslock.trans (by cases s.list l <;> rfl))
    next => cases hs
  next l done has hp =>
    cases hs
    rw [hp] at hslock hlist
    obtain ⟨hx, hy, hbusy⟩ := hidle { s.setListLock l none with poll := .expiring done } rfl
    exact h.looped rfl (fun _ => rfl) hx (h.slock.keep hslock) hy (h.listLock.give hlist) hbusy
  next l done e todo hp =>
    split at hs
    next hfree =>
      cases hs
      rw [hp] at hslock hlist
      obtain ⟨hx, hy, hbusy⟩ := hidle { (s.use .poll e).setSlock e.cs (some .poll) with
        poll := .detaching l done (e :: todo) true } rfl
      exact h.looped rfl (fun _ => rfl) hx (h.slock.take hfree hslock) hy (h.listLock.keep hlist) hbusy
    next => cases hs
  next l done e todo hp =>
    cases hs
    rw [hp] at hslock hlist
    obtain ⟨hx, hy, hbusy⟩ := hidle { (s.detach e).setSlock e.cs none with
      poll := .detaching l (done ++ [(e, (s.event e).submissions)]) todo false } rfl
    refine h.looped rfl (fun _ => rfl) hx ?_ hy (h.listLock.keep hlist) hbusy
    rw [show (PollState.detaching l (done ++ [(e, (s.event e).submissions)]) todo false).slock = none by
      cases todo <;> rfl]
    exact h.slock.give hslock
  next hp =>
    cases hs
    exact h.roamIdle ht (by rw [hp]; rfl) rfl rfl rfl rfl rfl
  next hp =>
    cases hs
    exact h.roam ht (by rw [hp]; rfl) rfl (fun i => setTask_ne (by simp) _) rfl rfl rfl rfl fun _ => ⟨rfl, rfl⟩

/-- **A step keeps the locks with the threads that are where they have them (proved).** -/
theorem pollStep_lockInv (h : LockInv s) {m : EngineMove} (hs : pollStep s m = some s') : LockInv s' := by
  cases m with
  | start i op => exact h.start hs
  | advance t =>
    obtain ⟨task, ht, hs⟩ := Option.bind_eq_some_iff.mp hs
    exact h.advance ht hs
  | fetch es =>
    simp only [pollStep] at hs
    split at hs
    next hmay =>
      cases hs
      obtain ⟨htop, ht, _⟩ := hmay
      exact h.roamIdle ht (by rw [htop]; rfl) rfl rfl rfl rfl rfl
    next => cases hs
  | tick l =>
    simp only [pollStep] at hs
    split at hs
    next hmay =>
      cases hs
      obtain ⟨htop, ht⟩ := hmay
      exact h.roamIdle ht (by rw [htop]; rfl) rfl rfl rfl rfl rfl
    next => cases hs
  | next =>
    simp only [pollStep] at hs
    split at hs
    next ht => exact h.next ht hs
    next => cases hs
  | free cs =>
    simp only [pollStep] at hs
    split at hs
    next =>
      cases hs
      exact { h with }
    next => cases hs

theorem lockInv_new (workers : ℕ) : LockInv (PollEngine.new workers) where
  slock cs t := by
    cases t <;> simp [PollEngine.new, PollEngine.holdsSlock, PollEngine.loop, PollState.slock]
  listLock l t := by
    cases t <;> simp [PollEngine.new, PollEngine.holdsListLock, PollEngine.loop, PollState.holding]
  loop ht := absurd rfl ht
  idle i _ := rfl

/-! ### The order of the locks -/

/-- The poll thread has what it had, and nobody else goes on to a list. -/
theorem LockOrder.keep (h : LockOrder s) (hpoll : ∀ x, s'.poll.holding = some x → s.poll.holding = some x)
    (htask : ∀ u op l, s'.task u = some (.wantsList op l) → s.task u = some (.wantsList op l)) : LockOrder s' := by
  intro x hx u hu
  obtain ⟨op, hop, he⟩ := hu
  exact h x (hpoll x hx) u ⟨op, htask u op x.1 hop, he⟩

/-- A thread gets another task that does not need a list. -/
theorem wantsList_setTask {t u : EngineThread} {task : Option LockTask} {op : EngineOp} {l : ℕ}
    (htask : ∀ op l, task ≠ some (.wantsList op l)) (hu : (s.setTask t task).task u = some (.wantsList op l)) :
    s.task u = some (.wantsList op l) := by
  by_cases hut : u = t
  · rw [hut, setTask_self] at hu
    exact absurd hu (htask op l)
  · rw [setTask_ne hut] at hu
    exact hu

theorem LockOrder.advance (h : LockOrder s) {t : EngineThread} {task : LockTask}
    (hok : ∀ op ∈ task.wanted, ∀ x ∈ s.poll.holding, op.needs (s.event op.event) = some x.1 →
      ∀ e ∈ x.2, e.cs ≠ op.event.cs) (hs : s.advance t task = some s') : LockOrder s' := by
  cases task with
  | wants op =>
    simp only [PollEngine.advance] at hs
    split at hs
    · split at hs
      next l hneeds =>
        cases hs
        intro x hx u hu
        obtain ⟨op', hop, e, he, hcs⟩ := hu
        by_cases hut : u = t
        · rw [hut, setTask_self] at hop
          cases hop
          exact hok op rfl x hx hneeds e he hcs
        · rw [setTask_ne hut] at hop
          exact h x hx u ⟨op', hop, e, he, hcs⟩
      next =>
        cases hs
        exact h.keep (fun x hx => hx) fun u op' l hu => wantsList_setTask (by simp) hu
    · cases hs
  | wantsList op l =>
    simp only [PollEngine.advance] at hs
    split at hs
    · cases hs
      exact h.keep (fun x hx => hx) fun u op' l hu => wantsList_setTask (by simp) hu
    · cases hs
  | hasList op l =>
    cases hs
    exact h.keep (fun x hx => hx) fun u op' l hu => wantsList_setTask (by simp) hu
  | releasing op begins =>
    cases hs
    refine h.keep (fun x hx => hx) ?_
    intro u op' l hu
    apply wantsList_setTask _ hu
    cases begins <;> simp
  | begins e =>
    cases hs
    exact h.keep (fun x hx => hx) fun u op' l hu => wantsList_setTask (by simp) hu

theorem LockOrder.next (h : LockOrder s) (hinv : LockInv s) (ht : s.task .poll = none)
    (hok : ∀ l ∈ s.poll.ticking, ∀ i < s.workers, ¬ s.needsBoth l (s.list l) (.worker i))
    (hs : s.pollNext = some s') : LockOrder s' := by
  simp only [PollEngine.pollNext] at hs
  split at hs
  next => cases hs
  next =>
    cases hs
    intro x hx
    cases hx
  next =>
    cases hs
    intro x hx
    cases hx
  next l hp =>
    split at hs
    · cases hs
      intro x hx u hboth
      cases hx
      cases u with
      | poll =>
        obtain ⟨op, hop, _⟩ := hboth
        rw [show s.task .poll = some (.wantsList op l) from hop] at ht
        cases ht
      | worker i =>
        by_cases hi : i < s.workers
        · exact hok l (by rw [hp]; rfl) i hi hboth
        · obtain ⟨op, hop, _⟩ := hboth
          have hidle := hinv.idle i (by omega)
          rw [show s.task (.worker i) = some (.wantsList op l) from hop] at hidle
          cases hidle
    · cases hs
  next =>
    cases hs
    intro x hx
    cases hx
  next l done e todo hp =>
    split at hs
    · cases hs
      exact h.keep (fun x hx => by rw [hp]; exact hx) fun u op l hu => hu
    · cases hs
  next l done e todo hp =>
    cases hs
    intro x hx u hboth
    cases hx
    -- the events that are left were there before
    apply h (l, e :: todo) (by rw [hp]; rfl) u
    obtain ⟨op, hop, e', he', hcs⟩ := hboth
    exact ⟨op, hop, e', List.mem_cons_of_mem e he', hcs⟩
  next =>
    cases hs
    intro x hx
    cases hx
  next =>
    cases hs
    intro x hx
    cases hx

/-- **An orderly step keeps the order (proved).** -/
theorem pollStep_lockOrder (h : LockOrder s) (hinv : LockInv s) {m : EngineMove} (hok : LockOrderly s m)
    (hs : pollStep s m = some s') : LockOrder s' := by
  cases m with
  | start i op =>
    simp only [pollStep] at hs
    split at hs
    next =>
      cases op with
      | submit | kill | handle | ready | expire =>
        cases hs
        exact h.keep (fun x hx => hx) fun u op' l hu => wantsList_setTask (by simp) hu
    next => cases hs
  | advance t =>
    obtain ⟨task, ht, hs⟩ := Option.bind_eq_some_iff.mp hs
    apply h.advance _ hs
    intro op hop
    exact hok op (Option.mem_def.mpr (Option.bind_eq_some_iff.mpr ⟨task, ht, hop⟩))
  | next =>
    simp only [pollStep] at hs
    split at hs
    next ht => exact h.next hinv ht hok hs
    next => cases hs
  | fetch | tick =>
    simp only [pollStep] at hs
    split at hs
    next =>
      cases hs
      intro x hx
      cases hx
    next => cases hs
  | free =>
    simp only [pollStep] at hs
    split at hs
    next =>
      cases hs
      exact h
    next => cases hs

/-! ### The order, once lost -/

/-- A step that is not orderly loses the order. -/
theorem lockOrder_lost {m : EngineMove} (hok : ¬ LockOrderly s m)
    (hs : pollStep s m = some s') : ¬ LockOrder s' := by
  intro horder
  apply hok
  cases m with
  | start | fetch | tick | free => trivial
  | next =>
    intro l hl i _ hboth
    have hp : s.poll = .wantsTick l := by
      cases hpoll : s.poll <;> rw [hpoll] at hl <;> cases hl
      rfl
    simp only [pollStep, PollEngine.pollNext, hp] at hs
    split at hs
    · split at hs
      · cases hs
        exact horder (l, s.list l) rfl (.worker i) hboth
      · cases hs
    · cases hs
  | advance t =>
    intro op hop x hx hneeds e he hcs
    obtain ⟨task, htask, hs⟩ := Option.bind_eq_some_iff.mp hs
    have hwants : task = .wants op := by
      rw [htask] at hop
      cases task <;> cases hop
      rfl
    rw [hwants] at hs
    simp only [PollEngine.advance] at hs
    split at hs
    · rw [hneeds] at hs
      cases hs
      exact horder x hx t ⟨op, setTask_self t _, e, he, hcs⟩
    · cases hs

/-- A thread that goes on leaves the poll thread's loops and the other threads alone. -/
theorem advance_frame {t : EngineThread} {task : LockTask} (hs : s.advance t task = some s') :
    s'.poll = s.poll ∧ ∀ u, u ≠ t → s'.task u = s.task u := by
  cases task with
  | wants op =>
    simp only [PollEngine.advance] at hs
    split at hs
    · split at hs <;> cases hs <;> exact ⟨rfl, fun u hu => if_neg hu⟩
    · cases hs
  | wantsList op l =>
    simp only [PollEngine.advance] at hs
    split at hs
    · cases hs
      exact ⟨rfl, fun u hu => if_neg hu⟩
    · cases hs
  | hasList | releasing | begins =>
    cases hs
    exact ⟨rfl, fun u hu => if_neg hu⟩

/-- **The order, once lost, stays lost (proved):** the one thread does not get the list, and the poll thread does not
get past its events. -/
theorem lockOrder_stays_lost (hinv : LockInv s) (hlost : ¬ LockOrder s) {m : EngineMove}
    (hs : pollStep s m = some s') : ¬ LockOrder s' := by
  obtain ⟨x, hx, t, op, ht, e, he, hcs⟩ : ∃ x, s.poll.holding = some x ∧ ∃ t, s.needsBoth x.1 x.2 t := by
    by_contra hnot
    exact hlost fun x hx t ht => hnot ⟨x, hx, t, ht⟩
  have hpoll : s.task .poll = none := by
    by_contra hbusy
    rw [(hinv.loop hbusy).1] at hx
    cases hx
  have hslock : s.slock op.event.cs = some t := (hinv.slock _ t).mpr (holdsSlock_task ht)
  have hlist : s.listLock x.1 = some .poll := by
    apply (hinv.listLock _ .poll).mpr
    rw [holdsListLock_idle hpoll, show s.loop .poll = s.poll from rfl, hx]
    rfl
  -- the two threads, and the event, are still there
  have hstill : ∀ todo, s'.poll.holding = some (x.1, todo) → e ∈ todo → s'.task t = s.task t → ¬ LockOrder s' := by
    intro todo hx' he' ht' horder
    exact horder _ hx' t ⟨op, ht'.trans ht, e, he', hcs⟩
  cases m with
  | start i op' =>
    simp only [pollStep] at hs
    split at hs
    next hmay =>
      have hne : t ≠ .worker i := by
        intro hti
        rw [hti, hmay.2.1] at ht
        cases ht
      apply hstill x.2 _ he
      · cases op' <;> cases hs <;> exact setTask_ne hne _
      · cases op' <;> cases hs <;> exact hx
    next => cases hs
  | advance u =>
    obtain ⟨task, hu, hs⟩ := Option.bind_eq_some_iff.mp hs
    by_cases hut : u = t
    · -- the list is with the poll thread
      rw [hut, ht] at hu
      cases hu
      simp only [PollEngine.advance, hlist] at hs
      cases hs
    · obtain ⟨hp, hother⟩ := advance_frame hs
      exact hstill x.2 (hp ▸ hx) he (hother t (Ne.symm hut))
  | fetch | tick =>
    simp only [pollStep] at hs
    split at hs
    next hmay =>
      rw [hmay.1] at hx
      cases hx
    next => cases hs
  | next =>
    simp only [pollStep, if_pos hpoll] at hs
    cases hp : s.poll with
    | top | entries | wantsTick | expiring =>
      rw [hp] at hx
      cases hx
    | detaching l done todo has =>
      rw [hp] at hx
      cases hx
      cases todo with
      | nil => cases he
      | cons e' todo =>
        cases has with
        | false =>
          simp only [PollEngine.pollNext, hp] at hs
          split at hs
          · cases hs
            exact hstill (e' :: todo) rfl he rfl
          · cases hs
        | true =>
          simp only [PollEngine.pollNext, hp] at hs
          cases hs
          -- the `slock` of the next event is with the poll thread
          have hnext : s.slock e'.cs = some .poll := by
            apply (hinv.slock _ .poll).mpr
            rw [holdsSlock_idle hpoll, show s.loop .poll = s.poll from rfl, hp]
            rfl
          have hne : e ≠ e' := by
            intro hee
            rw [← hcs, hee, hnext] at hslock
            cases hslock
            rw [hpoll] at ht
            cases ht
          exact hstill todo rfl ((List.mem_cons.mp he).resolve_left hne) rfl
  | free cs =>
    simp only [pollStep] at hs
    split at hs
    next =>
      cases hs
      exact hlost
    next => cases hs

/-- The two wait for each other in all that comes after. -/
theorem reachable_lost (hinv : LockInv s) (hlost : ¬ LockOrder s) (h : Reachable (enabled pollStep) s s') :
    ¬ LockOrder s' := by
  have hboth : LockInv s' ∧ ¬ LockOrder s' := by
    apply h.invariant (P := fun s => LockInv s ∧ ¬ LockOrder s) ⟨hinv, hlost⟩
    intro s m s' hi _ hs
    exact ⟨pollStep_lockInv hi.1 hs, lockOrder_stays_lost hi.1 hi.2 hs⟩
  exact hboth.2

/-! ### Nobody waits for itself -/

/-- What a thread may still wait for: more before the first lock than with it, and most of the poll thread's list. -/
def PollEngine.waitRank (s : PollEngine) (t : EngineThread) : ℕ :=
  match s.task t with
  | some (.wants _) => 4
  | some (.wantsList _ l) => if s.listLock l = some .poll then 3 else 1
  | some _ => 0
  | none => if (s.loop t).holding.isSome then 2 else if (s.loop t).ticking.isSome then 1 else 0

theorem waitRank_task {t : EngineThread} {task : LockTask} (ht : s.task t = some task)
    (hslock : task.slock.isSome ∨ task.listLock.isSome)
    (hpoll : ∀ op l, task = .wantsList op l → s.listLock l ≠ some .poll) :
    s.waitRank t ≤ 1 := by
  rw [PollEngine.waitRank, ht]
  cases task with
  | wants op => simp [LockTask.slock, LockTask.listLock] at hslock
  | wantsList op l => simp [hpoll op l rfl]
  | hasList | releasing | begins => simp

/-- A thread that has a `slock` waits for nothing but a list. -/
theorem waitRank_slock {t : EngineThread} {cs : ℕ} (ht : s.holdsSlock t = some cs) : s.waitRank t ≤ 3 := by
  cases htask : s.task t with
  | none =>
    simp only [PollEngine.waitRank, htask]
    split
    · omega
    · split <;> omega
  | some task =>
    rw [holdsSlock_task htask] at ht
    cases task with
    | wants op => cases ht
    | wantsList op l =>
      simp only [PollEngine.waitRank, htask]
      split <;> omega
    | hasList | releasing | begins => simp [PollEngine.waitRank, htask]

/-- A thread that has the lock of a list: a worker waits for nothing, the poll thread only for a `slock`. -/
theorem waitRank_listLock {t : EngineThread} {l : ℕ} (ht : s.holdsListLock t = some l) :
    s.waitRank t ≤ 2 ∧ (t ≠ .poll → s.waitRank t = 0) := by
  cases htask : s.task t with
  | none =>
    rw [holdsListLock_idle htask] at ht
    cases t with
    | poll =>
      refine ⟨?_, fun hne => absurd rfl hne⟩
      simp only [PollEngine.waitRank, htask]
      split
      · omega
      · split <;> omega
    | worker i => cases ht
  | some task =>
    rw [holdsListLock_task htask] at ht
    cases task with
    | hasList op l => simp [PollEngine.waitRank, htask]
    | wants | wantsList | releasing | begins => cases ht

/-- What it is to be about to take a `slock`. -/
theorem wantsSlock_cases {t : EngineThread} {cs : ℕ} (h : s.wantsSlock t = some cs) :
    (∃ op, s.task t = some (.wants op) ∧ op.event.cs = cs) ∨
      (t = .poll ∧ s.task .poll = none ∧
        ∃ l done e todo, s.poll = .detaching l done (e :: todo) false ∧ e.cs = cs) := by
  unfold PollEngine.wantsSlock at h
  split at h
  next op ht => exact .inl ⟨op, ht, Option.some.inj h⟩
  next => cases h
  next ht =>
    split at h
    next l done e todo hp => exact .inr ⟨rfl, ht, l, done, e, todo, hp, Option.some.inj h⟩
    next => cases h

theorem wantsListLock_cases {t : EngineThread} {l : ℕ} (h : s.wantsListLock t = some l) :
    (∃ op, s.task t = some (.wantsList op l)) ∨ (t = .poll ∧ s.task .poll = none ∧ s.poll = .wantsTick l) := by
  unfold PollEngine.wantsListLock at h
  split at h
  next op l' ht =>
    cases h
    exact .inl ⟨op, ht⟩
  next => cases h
  next ht =>
    split at h
    next l' hp =>
      cases h
      exact .inr ⟨rfl, ht, hp⟩
    next => cases h

/-- **A thread waits for one of lower rank (proved).**  The poll thread, in the first loop, may find a `slock` taken;
by `LockOrder` the thread that has it does not wait for the poll thread's list. -/
theorem waitsFor_rank (h : LockInv s) (horder : LockOrder s) {t t' : EngineThread} (hw : s.WaitsFor t t') :
    s.waitRank t' < s.waitRank t := by
  rcases hw with ⟨cs, hwant, hhas⟩ | ⟨l, hwant, hhas⟩
  · have hslock := (h.slock cs t').mp hhas
    rcases wantsSlock_cases hwant with ⟨op, ht, _⟩ | ⟨rfl, ht, l, done, e, todo, hp, hcs⟩
    · have hrank : s.waitRank t = 4 := by rw [PollEngine.waitRank, ht]
      have hle := waitRank_slock hslock
      omega
    · have hrank : s.waitRank .poll = 2 := by
        rw [PollEngine.waitRank, ht, show s.loop .poll = s.poll from rfl, hp]
        rfl
      have hheld : s.poll.holding = some (l, e :: todo) := by rw [hp]; rfl
      cases htask : s.task t' with
      | none =>
        -- the poll thread does not have it itself
        rw [holdsSlock_idle htask] at hslock
        cases t' with
        | poll =>
          rw [show s.loop .poll = s.poll from rfl, hp] at hslock
          cases hslock
        | worker i => cases hslock
      | some task =>
        rw [holdsSlock_task htask] at hslock
        have hle : s.waitRank t' ≤ 1 := by
          apply waitRank_task htask (.inl (by rw [hslock]; rfl))
          intro op l' hop hpoll
          rw [hop] at htask hslock
          have hsame := (h.listLock l' .poll).mp hpoll
          rw [holdsListLock_idle ht, show s.loop .poll = s.poll from rfl, hheld] at hsame
          have hl : l = l' := Option.some.inj hsame
          have hboth : s.needsBoth l (e :: todo) t' :=
            ⟨op, hl ▸ htask, e, List.mem_cons_self, hcs.trans (Option.some.inj hslock).symm⟩
          exact horder _ hheld t' hboth
        omega
  · have hlist := (h.listLock l t').mp hhas
    obtain ⟨htwo, hzero⟩ := waitRank_listLock hlist
    rcases wantsListLock_cases hwant with ⟨op, ht⟩ | ⟨rfl, ht, hp⟩
    · by_cases hpoll : t' = .poll
      · have hrank : s.waitRank t = 3 := by
          simp only [PollEngine.waitRank, ht]
          exact if_pos (hpoll ▸ hhas)
        omega
      · have hrank : 1 ≤ s.waitRank t := by
          simp only [PollEngine.waitRank, ht]
          split <;> omega
        have hworker := hzero hpoll
        omega
    · have hrank : s.waitRank .poll = 1 := by
        rw [PollEngine.waitRank, ht, show s.loop .poll = s.poll from rfl, hp]
        rfl
      have hne : t' ≠ .poll := by
        intro hpoll
        rw [hpoll, holdsListLock_idle ht, show s.loop .poll = s.poll from rfl, hp] at hlist
        cases hlist
      have hworker := hzero hne
      omega

/-- **Nobody waits for itself in orderly runs (proved).**  A run that is not orderly has the poll thread with a list
and before a `slock` that another thread has, which is before that list. -/
theorem reachable_noDeadlock {workers : ℕ}
    (h : ReachableVia (enabled pollStep) LockOrderly (PollEngine.new workers) s) (t : EngineThread) :
    ¬ Relation.TransGen s.WaitsFor t t := by
  have hinv : LockInv s ∧ LockOrder s := by
    apply h.invariant (P := fun s => LockInv s ∧ LockOrder s) ⟨lockInv_new workers, fun x hx => by cases hx⟩
    intro s m s' hi hok hs
    exact ⟨pollStep_lockInv hi.1 hs, pollStep_lockOrder hi.2 hi.1 hok hs⟩
  exact acyclic_of_rank s.waitRank (fun _ _ => waitsFor_rank hinv.1 hinv.2) t

end Locks

/-- A timeout, and a kill of the event that has timed out, one after the other. -/
theorem reachable_noDeadlock_tick :
    ∃ s, runFrom pollStep (PollEngine.new 1) [.start 0 (.submit ⟨0, .receive⟩ .readable 0 0 (some 7)),
      .advance (.worker 0), .advance (.worker 0), .advance (.worker 0), .advance (.worker 0), .tick 7, .next, .next,
      .start 0 (.kill ⟨0, .receive⟩), .next] = some s ∧ s.expired = [(⟨0, .receive⟩, 1)] ∧
      ∀ t, ¬ Relation.TransGen s.WaitsFor t t := by
  have hrun : ∃ s, runFrom (guarded LockOrderly pollStep) (PollEngine.new 1)
      [.start 0 (.submit ⟨0, .receive⟩ .readable 0 0 (some 7)), .advance (.worker 0), .advance (.worker 0),
        .advance (.worker 0), .advance (.worker 0), .tick 7, .next, .next, .start 0 (.kill ⟨0, .receive⟩), .next] =
          some s ∧
      runFrom pollStep (PollEngine.new 1) [.start 0 (.submit ⟨0, .receive⟩ .readable 0 0 (some 7)),
        .advance (.worker 0), .advance (.worker 0), .advance (.worker 0), .advance (.worker 0), .tick 7, .next, .next,
        .start 0 (.kill ⟨0, .receive⟩), .next] = some s ∧ s.expired = [(⟨0, .receive⟩, 1)] := ⟨_, rfl, rfl, rfl⟩
  obtain ⟨s, hs, hplain, hexpired⟩ := hrun
  exact ⟨s, hplain, hexpired, reachable_noDeadlock (reachableVia_of_runFrom hs)⟩

/-- **A timeout and a kill wait for each other (proved):** the kill has the `slock` and is about to take the event off
its list, whose lock the poll thread has. -/
theorem noDeadlock_fails : ¬ ∀ (workers : ℕ) (s : PollEngine),
    Reachable (enabled pollStep) (PollEngine.new workers) s → ∀ t, ¬ Relation.TransGen s.WaitsFor t t := by
  intro h
  have hrun : ∃ s, runFrom pollStep (PollEngine.new 1) [.start 0 (.submit ⟨0, .receive⟩ .readable 0 0 (some 7)),
      .advance (.worker 0), .advance (.worker 0), .advance (.worker 0), .advance (.worker 0),
      .start 0 (.kill ⟨0, .receive⟩), .tick 7, .advance (.worker 0), .next] = some s ∧
      s.wantsSlock .poll = some 0 ∧ s.slock 0 = some (.worker 0) ∧
      s.wantsListLock (.worker 0) = some 7 ∧ s.listLock 7 = some .poll := ⟨_, rfl, rfl, rfl, rfl, rfl⟩
  obtain ⟨s, hs, hwant, hhas, hwant', hhas'⟩ := hrun
  have hpoll : s.WaitsFor .poll (.worker 0) := .inl ⟨0, hwant, hhas⟩
  have hworker : s.WaitsFor (.worker 0) .poll := .inr ⟨7, hwant', hhas'⟩
  exact h 1 s (reachable_of_runFrom hs) .poll (.tail (.single hpoll) hworker)

end Connio
