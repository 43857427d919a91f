import Connio.ListenerCalls

/-!
# All operations on the listeners of a handle

The handle of `ListenerRecords` with the functions that are not there: `ConnAAddListenerEx`,
`ConnAAddIndependentListenerEx`, `ConnASuspendListenerEx`, `ConnAResumeListenerEx`, `ConnAExpireListenerEx` and
`ConnARestartListenerEx` (`connio.c`), by any number of threads.  A step is one hold of `handle->mutex`, or what a
thread does between two holds.

* `ListenerArgs`, `ListenerCaller`, `ListenerBook` — what a listener is added with, where the other threads are;
* `BookAction`, `bookStep` — who moves, and one step;
* `RecordAction.spawned`, `recordMove_threads` — **PROVED**: the threads after a step of `ListenerRecords`;
* `recordMove_list`, `recordMove_sameFlag` — **PROVED**: what such a step does to the list and to a record;
* `recordMove_data` — **PROVED**: what it does to a conn;
* `bookStep_bounded` — **PROVED**: the records have been allocated.
-/

namespace Connio

open Connio.Lib

/-! ### The handle and its threads -/

/-- What `ConnAAddListenerEx` compares. -/
structure ListenerArgs where
  /-- `sa` and `salen` -/
  sa : List UInt8
  backlog : ℤ
  callback : ℕ
  name : Option ℕ
  deriving DecidableEq, Repr

/-- Where a thread is outside the functions of `ListenerRecords`. -/
inductive ListenerCaller where
  /-- in `ConnAAddListenerEx`, about to take the mutex; `independent`: for `ConnAAddIndependentListenerEx` -/
  | adding (args : ListenerArgs) (independent : Bool)
  /-- in `ConnAAddIndependentListenerEx`, about to set `CONN_LISTENER_INDEPENDENT` -/
  | marking (l : ℕ)
  /-- in `ConnARestartListenerEx`, about to start the listener with another address; it had `c` -/
  | moving (l : ℕ) (c : Option ℕ)
  deriving DecidableEq, Repr

/-- The record that a thread is going to use. -/
def ListenerCaller.refers : ListenerCaller → Option ℕ
  | adding _ _ => none
  | marking l => some l
  | moving l _ => some l

structure ListenerBook where
  managed : ManagedListeners
  args : ℕ → ListenerArgs := fun _ => ⟨[], 0, 0, none⟩
  /-- the records that have been allocated -/
  added : ℕ := 0
  callers : List ListenerCaller := []
  /-- `handle->shuttingDown` -/
  shuttingDown : Bool := false
  /-- the listeners that `ConnAAddIndependentListenerEx` has returned -/
  independent : List ℕ := []
  /-- the listeners that `ConnARemoveListenerEx` has counted, with their conns -/
  removed : List (ℕ × Option ℕ) := []

/-- A handle without listeners. -/
def ListenerBook.new : ListenerBook where
  managed := .new []

namespace ListenerBook

variable (s : ListenerBook)

/-- A thread goes on. -/
def proceed (t : ListenerCaller) (t' : List ListenerCaller) : ListenerBook :=
  { s with callers := t' ++ s.callers.erase t }

/-- The record that `ConnAAddListenerEx` finds. -/
def found (args : ListenerArgs) : Option ℕ := s.managed.list.find? fun l => s.args l = args

/-- `ConnAAddListenerEx` up to the mutex, or to its end. -/
def add (args : ListenerArgs) (independent : Bool) : ListenerBook :=
  match s.found args with
  | some l =>
    { s with
      managed := s.managed.setRecord l (s.managed.record l).unexpire
      callers := if independent then .marking l :: s.callers else s.callers }
  | none => { s with callers := .adding args independent :: s.callers }

/-- A record of the list. -/
def link (args : ListenerArgs) : ListenerBook :=
  { s with
    managed := { s.managed.setRecord s.added { state := connListenerFresh } with list := s.managed.list ++ [s.added] }
    args := Function.update s.args s.added args
    added := s.added + 1 }

/-- The state of a record becomes independent. -/
def mark (l : ℕ) : ListenerBook :=
  { s with
    managed := (s.managed.setRecord l { s.managed.record l with
      state := (s.managed.record l).state ||| connListenerIndependent }).use l
    independent := l :: s.independent }

/-- A listener is restarted with another address. -/
def move (l : ℕ) : ListenerBook :=
  { s with
    managed := s.managed.setRecord l { conn := none, state := connListenerFresh }
    callers := .moving l (s.managed.record l).conn :: s.callers }

/-- `newListenersAllowed( NULL )` -/
def crash : ListenerBook := { s with managed := { s.managed with crashed := true } }

end ListenerBook

inductive BookAction where
  /-- a function of `ListenerRecords` -/
  | records (a : RecordAction)
  /-- `handle->shuttingDown` is set -/
  | shutdown
  | suspend (only : Option ℕ)
  | resume (only : Option ℕ)
  | expire (only : Option ℕ)
  /-- `ConnAAddListenerEx`, or `ConnAAddIndependentListenerEx`, is called -/
  | add (args : ListenerArgs) (independent : Bool)
  /-- it takes the mutex; `memory`: the record could be allocated -/
  | link (args : ListenerArgs) (independent memory : Bool)
  /-- `ConnAAddIndependentListenerEx` sets the flag -/
  | mark (l : ℕ)
  /-- `ConnARestartListenerEx` is called -/
  | move (l : ℕ) (sa : List UInt8)
  /-- it starts the listener, when there is memory for the address -/
  | moved (l : ℕ) (c : Option ℕ) (memory : Bool)
  deriving DecidableEq, Repr

/-- **One step** of a process that has not crashed. -/
def bookMove (s : ListenerBook) : BookAction → Option ListenerBook
  | .records (.remove which only cllist) =>
    some { s with
      managed := s.managed.remove which only cllist
      removed := (s.managed.list.filter (s.managed.selected which only)).map
        (fun l => (l, (s.managed.record l).conn)) ++ s.removed }
  | .records (.restart l) =>
    if s.shuttingDown then
      if .restarting l ∈ s.managed.threads then
        some { s with managed := (s.managed.use l).become (.restarting l) [] }
      else none
    else (recordMove s.managed (.restart l)).map fun m => { s with managed := m }
  | .records a => (recordMove s.managed a).map fun m => { s with managed := m }
  | .shutdown => some { s with shuttingDown := true, managed := { s.managed with closing := true } }
  | .suspend only => some { s with managed := s.managed.switch only connListenerActive connListenerSuspended }
  | .resume only => some { s with managed := s.managed.switch only connListenerSuspended connListenerActive }
  | .expire only => some { s with managed := s.managed.expire only }
  | .add args independent => some (if s.managed.closing then s else s.add args independent)
  | .link args independent memory =>
    if .adding args independent ∈ s.callers then
      if memory then
        some ((s.link args).proceed (.adding args independent) (if independent then [.marking s.added] else []))
      else some (s.proceed (.adding args independent) [])
    else none
  | .mark l => if .marking l ∈ s.callers then some ((s.mark l).proceed (.marking l) []) else none
  | .move l sa =>
    if l ∈ s.managed.list then
      if s.managed.closing then some s
      else if (s.args l).sa = sa then
        if (s.managed.record l).conn.isSome then some s else some s.crash
      else some (s.move l)
    else none
  | .moved l c memory =>
    if .moving l c ∈ s.callers then
      if memory && !s.shuttingDown then some s.crash
      else
        some ({ s with managed := (s.managed.setRecord l { s.managed.record l with conn := c }).use l }.proceed
          (.moving l c) [])
    else none

/-- **One step;** `none` when the action is not enabled. -/
def bookStep (s : ListenerBook) (a : BookAction) : Option ListenerBook :=
  if s.managed.crashed then none else bookMove s a

/-! ### What a step of `ListenerRecords` does -/

/-- The threads that a step leaves where they were not before. -/
def RecordAction.spawned (s : ManagedListeners) : RecordAction → List RecordThread
  | .start only which => [.starting only (ListenerHandle.startable which)]
  | .lock only which => s.scan only which (s.candidates only)
  | .listen only which l ok => [.submitted only which l (if ok then some s.allocated else none)]
  | .store only which l _ => [.stored only which l]
  | .relock only which l => (s.settle l).scan only which (s.rest only l)
  | .callback c => [.freeing c (s.conn c).data]
  | .free c l => l.toList.map (.clearing c)
  | .clear _ l => if s.closing = false ∧ (s.record l).has connListenerStopped = false then [.restarting l] else []
  | _ => []

/-- The thread that goes on in a step. -/
def RecordAction.goesOn : RecordAction → Option RecordThread
  | .lock only which => some (.starting only which)
  | .listen only which l _ => some (.listening only which l)
  | .store only which l c => some (.submitted only which l c)
  | .relock only which l => some (.stored only which l)
  | .free c l => some (.freeing c l)
  | .clear c l => some (.clearing c l)
  | .restart l => some (.restarting l)
  | _ => none

section Records

variable {s s' : ManagedListeners} {a : RecordAction}

theorem recordMove_start (hs : recordMove s a = some s') :
    ∀ only which, a = .start only which → ∀ l, only = some l → l ∈ s.list := by
  rintro only which rfl l rfl
  simp only [recordMove] at hs
  split at hs
  next hmem => simpa using hmem
  · cases hs

theorem recordMove_goesOn (hs : recordMove s a = some s') : ∀ t ∈ a.goesOn, t ∈ s.threads := by
  intro t ht
  cases a with
  | start _ _ | stop _ _ | remove _ _ _ | status _ _ _ | callback _ | close => cases ht
  | _ =>
    cases ht
    simp only [recordMove] at hs
    split at hs
    next hmem => exact hmem
    · cases hs

theorem mem_become {t t' : RecordThread} {ts : List RecordThread} (h : t' ∈ (s.become t ts).threads) :
    t' ∈ s.threads ∨ t' ∈ ts :=
  (List.mem_append.mp h).symm.imp_left List.mem_of_mem_erase

/-- **The threads after a step (proved):** the old ones and those that it leaves. -/
theorem recordMove_threads (hs : recordMove s a = some s') : ∀ t ∈ s'.threads, t ∈ s.threads ∨ t ∈ a.spawned s := by
  intro t ht
  cases a with
  | start only which =>
    simp only [recordMove] at hs
    split at hs
    · split at hs
      · cases hs
        exact Or.inl ht
      · cases hs
        rcases List.mem_cons.mp ht with rfl | ht
        · exact Or.inr (List.mem_singleton.mpr rfl)
        · exact Or.inl ht
    · cases hs
  | lock only which =>
    simp only [recordMove] at hs
    split at hs
    · cases hs
      have hsame : (only.elim s s.use).threads = s.threads := by cases only <;> rfl
      rcases mem_become ht with ht | ht
      · rw [hsame] at ht
        exact Or.inl ht
      · exact Or.inr ht
    · cases hs
  | listen only which l ok =>
    simp only [recordMove] at hs
    split at hs
    · cases ok <;> cases hs <;> exact mem_become ht
    · cases hs
  | store only which l c =>
    simp only [recordMove] at hs
    split at hs
    · cases hs
      exact mem_become ht
    · cases hs
  | relock only which l =>
    simp only [recordMove] at hs
    split at hs
    · cases hs
      have hsame : (s.settle l).threads = s.threads := by
        unfold ManagedListeners.settle
        split <;> rfl
      rcases mem_become ht with ht | ht
      · left
        rw [← hsame]
        exact ht
      · exact Or.inr ht
    · cases hs
  | stop which only =>
    cases hs
    exact Or.inl ht
  | remove which only cllist =>
    cases hs
    exact Or.inl ht
  | status which only shuttingdown =>
    cases hs
    left
    cases shuttingdown with
    | false => exact ht
    | true =>
      simp only [if_true, ManagedListeners.status] at ht
      split at ht <;> exact ht
  | callback c =>
    simp only [recordMove] at hs
    split at hs
    · cases hs
      rcases List.mem_cons.mp ht with rfl | ht
      · exact Or.inr (List.mem_singleton.mpr rfl)
      · exact Or.inl ht
    · cases hs
  | free c l =>
    simp only [recordMove] at hs
    split at hs
    · cases hs
      exact mem_become ht
    · cases hs
  | clear c l =>
    simp only [recordMove] at hs
    split at hs
    · cases hs
      exact mem_become ht
    · cases hs
  | restart l =>
    simp only [recordMove] at hs
    split at hs
    · cases hs
      exact (mem_become ht).imp_right fun h => by cases h
    · cases hs
  | close =>
    cases hs
    exact Or.inl ht

/-- **The list after a step (proved)** is a part of the list before it. -/
theorem recordMove_list (hs : recordMove s a = some s') : ∀ l ∈ s'.list, l ∈ s.list := by
  intro l hl
  cases a with
  | remove which only cllist =>
    cases hs
    exact List.mem_of_mem_filter hl
  | status which only shuttingdown =>
    cases hs
    cases shuttingdown with
    | false => exact hl
    | true =>
      simp only [if_true, ManagedListeners.status] at hl
      split at hl
      · exact List.mem_of_mem_erase hl
      · exact hl
  | lock only which =>
    simp only [recordMove] at hs
    split at hs
    · cases hs
      cases only <;> exact hl
    · cases hs
  | listen only which l' ok =>
    simp only [recordMove] at hs
    split at hs
    · cases ok <;> cases hs <;> exact hl
    · cases hs
  | relock only which l' =>
    simp only [recordMove] at hs
    split at hs
    · cases hs
      have hsame : (s.settle l').list = s.list := by
        unfold ManagedListeners.settle
        split <;> rfl
      rw [← hsame]
      exact hl
    · cases hs
  | start only which =>
    simp only [recordMove] at hs
    split at hs
    · split at hs <;> cases hs <;> exact hl
    · cases hs
  | stop which only =>
    cases hs
    exact hl
  | close =>
    cases hs
    exact hl
  | store _ _ _ _ | callback _ | free _ _ | clear _ _ | restart _ =>
    simp only [recordMove] at hs
    split at hs
    · cases hs
      exact hl
    · cases hs

/-- What a step does to the state of a record. -/
def SameFlag (r r' : ConnListenerPriv) : Prop := r'.state = r.state ∨ ∃ state, r'.state = (r.setState state).state

theorem or_has {x y flags : ℕ} (h : y &&& flags ≠ 0) : (x ||| y) &&& flags ≠ 0 := by
  rw [Nat.and_or_distrib_right]
  exact fun heq => h (Nat.or_eq_zero_iff.mp heq).2

/-- The flag of independence is kept. -/
theorem SameFlag.independent {r r' : ConnListenerPriv} (h : SameFlag r r')
    (hflag : r.has connListenerIndependent = true) : r'.has connListenerIndependent = true := by
  have hbit : r.state &&& connListenerIndependent ≠ 0 := by simpa [ConnListenerPriv.has] using hflag
  unfold ConnListenerPriv.has
  rcases h with heq | ⟨state, heq⟩
  · rw [heq]
    simpa using hbit
  · rw [heq]
    have hkept : (r.state &&& connListenerIndependent) &&& connListenerIndependent ≠ 0 := by
      rwa [Nat.and_assoc, Nat.and_self]
    exact decide_eq_true (or_has hkept)

section Bits

variable {r : ConnListenerPriv} {state : ℕ}

theorem setState_expired (h : state &&& connListenerExpired = 0) : (r.setState state).has connListenerExpired = false := by
  have hbits : connListenerIndependent &&& connListenerExpired = 0 := by decide
  unfold ConnListenerPriv.has ConnListenerPriv.setState
  simp only [Nat.and_or_distrib_right, Nat.and_assoc, h, hbits, Nat.and_zero, Nat.or_zero, ne_eq, not_true_eq_false,
    decide_false]

theorem setState_independent (h : state &&& connListenerIndependent = 0) :
    (r.setState state).has connListenerIndependent = r.has connListenerIndependent := by
  unfold ConnListenerPriv.has ConnListenerPriv.setState
  simp only [Nat.and_or_distrib_right, Nat.and_assoc, h, Nat.and_self, Nat.zero_or]

theorem unexpire_expired : r.unexpire.has connListenerExpired = false := by
  have hmask : (0xffffffff - connListenerExpired) &&& connListenerExpired = 0 := by decide
  unfold ConnListenerPriv.has ConnListenerPriv.unexpire
  simp only [Nat.and_assoc, hmask, Nat.and_zero, ne_eq, not_true_eq_false, decide_false]

theorem unexpire_independent : r.unexpire.has connListenerIndependent = r.has connListenerIndependent := by
  have hmask : (0xffffffff - connListenerExpired) &&& connListenerIndependent = connListenerIndependent := by decide
  unfold ConnListenerPriv.has ConnListenerPriv.unexpire
  simp only [Nat.and_assoc, hmask]

theorem expire_expired :
    ConnListenerPriv.has { r with state := r.state ||| connListenerExpired } connListenerExpired = true := by
  have hself : connListenerExpired &&& connListenerExpired ≠ 0 := by decide
  exact decide_eq_true (or_has hself)

theorem expire_independent :
    ConnListenerPriv.has { r with state := r.state ||| connListenerExpired } connListenerIndependent =
      r.has connListenerIndependent := by
  have hbits : connListenerExpired &&& connListenerIndependent = 0 := by decide
  unfold ConnListenerPriv.has
  simp only [Nat.and_or_distrib_right, hbits, Nat.or_zero]

end Bits

/-- One record is set. -/
theorem setRecord_sameFlag {l' : ℕ} {r : ConnListenerPriv} (h : SameFlag (s.record l') r) (l : ℕ) :
    SameFlag (s.record l) ((s.setRecord l' r).record l) := by
  change SameFlag _ (if l = l' then r else s.record l)
  split
  next heq =>
    rw [heq]
    exact h
  · exact Or.inl rfl

theorem settle_sameFlag (s : ManagedListeners) (l' l : ℕ) : SameFlag (s.record l) ((s.settle l').record l) := by
  unfold ManagedListeners.settle
  split
  next c hc => exact setRecord_sameFlag (r := (s.record l').setState connListenerActive) (Or.inr ⟨_, rfl⟩) l
  next hc => exact setRecord_sameFlag (Or.inr ⟨_, rfl⟩) l

/-- **A record after a step (proved):** `ConnARemoveListenerEx` apart, its flag of independence is kept. -/
theorem recordMove_sameFlag (hs : recordMove s a = some s') (ha : ∀ which only cllist, a ≠ .remove which only cllist)
    (l : ℕ) : SameFlag (s.record l) (s'.record l) := by
  cases a with
  | start only which =>
    simp only [recordMove] at hs
    split at hs
    · split at hs <;> cases hs <;> exact Or.inl rfl
    · cases hs
  | lock only which =>
    simp only [recordMove] at hs
    split at hs
    · cases hs
      cases only <;> exact Or.inl rfl
    · cases hs
  | listen only which l' ok =>
    simp only [recordMove] at hs
    split at hs
    · cases ok <;> cases hs <;> exact Or.inl rfl
    · cases hs
  | store only which l' c =>
    simp only [recordMove] at hs
    split at hs
    · cases hs
      exact setRecord_sameFlag (s := s) (r := { s.record l' with conn := c }) (Or.inl rfl) l
    · cases hs
  | relock only which l' =>
    simp only [recordMove] at hs
    split at hs
    · cases hs
      exact settle_sameFlag s l' l
    · cases hs
  | stop which only =>
    cases hs
    change SameFlag _ (if l ∈ s.list ∧ s.selected which only l then (s.record l).setState connListenerStopped
      else s.record l)
    split
    · exact Or.inr ⟨_, rfl⟩
    · exact Or.inl rfl
  | remove which only cllist => exact absurd rfl (ha which only cllist)
  | status which only shuttingdown =>
    cases hs
    left
    cases shuttingdown with
    | false => rfl
    | true =>
      simp only [if_true, ManagedListeners.status]
      split <;> rfl
  | clear c l' =>
    simp only [recordMove] at hs
    split at hs
    · cases hs
      exact setRecord_sameFlag (s := s) (r := { s.record l' with conn := none }) (Or.inl rfl) l
    · cases hs
  | close =>
    cases hs
    exact Or.inl rfl
  | callback _ | free _ _ | restart _ =>
    simp only [recordMove] at hs
    split at hs
    · cases hs
      exact Or.inl rfl
    · cases hs

/-- **A conn after a step (proved):** its `client.data` is what it was, none, or set by the thread that has started
the listener. -/
theorem recordMove_data {c l : ℕ} (hs : recordMove s a = some s') (hdata : (s'.conn c).data = some l) :
    (s.conn c).data = some l ∨ ∃ only which, .stored only which l ∈ s.threads := by
  have hset : ∀ (c' : ℕ) (v : ListenerConn), (if c = c' then v else s.conn c).data = some l →
      v.data = some l ∨ (s.conn c).data = some l := by
    intro c' v h
    split at h
    · exact Or.inl h
    · exact Or.inr h
  cases a with
  | start only which =>
    simp only [recordMove] at hs
    split at hs
    · split at hs <;> cases hs <;> exact Or.inl hdata
    · cases hs
  | lock only which =>
    simp only [recordMove] at hs
    split at hs
    · cases hs
      cases only <;> exact Or.inl hdata
    · cases hs
  | listen only which l' ok =>
    simp only [recordMove] at hs
    split at hs
    · cases ok with
      | true =>
        cases hs
        rcases hset s.allocated { live := true } hdata with h | h
        · cases h
        · exact Or.inl h
      | false =>
        cases hs
        exact Or.inl hdata
    · cases hs
  | relock only which l' =>
    simp only [recordMove] at hs
    split at hs
    next hmem =>
      cases hs
      have hsettle : ((s.settle l').conn c).data = some l := hdata
      unfold ManagedListeners.settle at hsettle
      split at hsettle
      next c' hc' =>
        rcases hset c' { s.conn c' with data := some l' } hsettle with h | h
        · cases h
          exact Or.inr ⟨only, which, hmem⟩
        · exact Or.inl h
      · exact Or.inl hsettle
    · cases hs
  | status which only shuttingdown =>
    cases hs
    left
    cases shuttingdown with
    | false => exact hdata
    | true =>
      simp only [if_true, ManagedListeners.status] at hdata
      split at hdata <;> exact hdata
  | callback c' =>
    simp only [recordMove] at hs
    split at hs
    · cases hs
      rcases hset c' { s.conn c' with data := none, live := false } hdata with h | h
      · cases h
      · exact Or.inl h
    · cases hs
  | free c' l' =>
    simp only [recordMove] at hs
    split at hs
    · cases hs
      rcases hset c' { s.conn c' with freed := true } hdata with h | h
      · by_cases hc : c = c'
        · rw [hc]
          exact Or.inl h
        · change (if c = c' then _ else s.conn c).data = some l at hdata
          rw [if_neg hc] at hdata
          exact Or.inl hdata
      · exact Or.inl h
    · cases hs
  | stop _ _ | remove _ _ _ | close =>
    cases hs
    exact Or.inl hdata
  | store _ _ _ _ | clear _ _ | restart _ =>
    simp only [recordMove] at hs
    split at hs
    · cases hs
      exact Or.inl hdata
    · cases hs

end Records

/-! ### What a step does -/

/-- What a step other than `ConnARemoveListenerEx` does to the records. -/
structure RecordsMoved (s s' : ManagedListeners) (a : RecordAction) : Prop where
  start : ∀ only which, a = .start only which → ∀ l, only = some l → l ∈ s.list
  goesOn : ∀ t ∈ a.goesOn, t ∈ s.threads
  threads : ∀ t ∈ s'.threads, t ∈ s.threads ∨ t ∈ a.spawned s
  list : ∀ l ∈ s'.list, l ∈ s.list
  flag : ∀ l, SameFlag (s.record l) (s'.record l)
  data : ∀ c l, (s'.conn c).data = some l → (s.conn c).data = some l ∨ ∃ only which, .stored only which l ∈ s.threads

section Steps

variable {s s' : ListenerBook}

theorem bookMove_of_step {a : BookAction} (hs : bookStep s a = some s') : bookMove s a = some s' := by
  unfold bookStep at hs
  split at hs
  · cases hs
  · exact hs

/-- **A function of `ListenerRecords` (proved).** -/
theorem bookMove_records {a : RecordAction} (hs : bookMove s (.records a) = some s')
    (ha : ∀ which only cllist, a ≠ .remove which only cllist) :
    ∃ m, s' = { s with managed := m } ∧ RecordsMoved s.managed m a := by
  have hmoved : ∀ m, recordMove s.managed a = some m → RecordsMoved s.managed m a := fun m hm =>
    ⟨recordMove_start hm, recordMove_goesOn hm, recordMove_threads hm, recordMove_list hm, recordMove_sameFlag hm ha,
      fun c l => recordMove_data hm⟩
  have hmap : (∀ l, a ≠ .restart l) →
      (recordMove s.managed a).map (fun m => ({ s with managed := m } : ListenerBook)) = some s' := by
    intro hne
    cases a with
    | remove which only cllist => exact absurd rfl (ha which only cllist)
    | restart l => exact absurd rfl (hne l)
    | _ => exact hs
  by_cases hrestart : ∃ l, a = .restart l
  · obtain ⟨l, rfl⟩ := hrestart
    simp only [bookMove] at hs
    split at hs
    · split at hs
      next hmem =>
        cases hs
        refine ⟨_, rfl, fun only which heq => (by cases heq), fun t ht => ?_, fun t ht => ?_, fun l' hl' => hl',
          fun l' => Or.inl rfl, fun c l' hdata => Or.inl hdata⟩
        · cases ht
          exact hmem
        exact (mem_become (s := s.managed.use l) ht).imp_right fun h => by cases h
      next => cases hs
    · obtain ⟨m, hm, rfl⟩ := Option.map_eq_some_iff.mp hs
      exact ⟨m, rfl, hmoved m hm⟩
  · obtain ⟨m, hm, rfl⟩ := Option.map_eq_some_iff.mp (hmap fun l heq => hrestart ⟨l, heq⟩)
    exact ⟨m, rfl, hmoved m hm⟩

/-- The records, the list and the threads have been allocated. -/
structure BookBounded (s : ListenerBook) : Prop where
  list : ∀ l ∈ s.managed.list, l < s.added
  independent : ∀ l ∈ s.independent, l < s.added
  callers : ∀ t ∈ s.callers, ∀ l, t.refers = some l → l < s.added
  removed : ∀ p ∈ s.removed, p.1 < s.added

theorem found_mem {args : ListenerArgs} {l : ℕ} (h : s.found args = some l) : l ∈ s.managed.list :=
  List.mem_of_find?_eq_some h

theorem mem_proceed {t t' : ListenerCaller} {ts : List ListenerCaller} (h : t' ∈ (s.proceed t ts).callers) :
    t' ∈ s.callers ∨ t' ∈ ts :=
  (List.mem_append.mp h).symm.imp_left List.mem_of_mem_erase

/-- **The bounds are kept (proved).** -/
theorem bookStep_bounded {a : BookAction} (h : BookBounded s) (hs : bookStep s a = some s') : BookBounded s' := by
  have hs := bookMove_of_step hs
  cases a with
  | records a =>
    by_cases ha : ∃ which only cllist, a = .remove which only cllist
    · obtain ⟨which, only, cllist, rfl⟩ := ha
      cases hs
      refine ⟨fun l hl => h.list l (List.mem_of_mem_filter hl), h.independent, h.callers, fun p hp => ?_⟩
      rcases List.mem_append.mp hp with hp | hp
      · obtain ⟨l, hl, rfl⟩ := List.mem_map.mp hp
        exact h.list l (List.mem_of_mem_filter hl)
      · exact h.removed p hp
    · obtain ⟨m, rfl, hm⟩ := bookMove_records hs fun which only cllist heq => ha ⟨which, only, cllist, heq⟩
      exact ⟨fun l hl => h.list l (hm.list l hl), h.independent, h.callers, h.removed⟩
  | shutdown | suspend only | resume only | expire only =>
    cases hs
    exact ⟨h.list, h.independent, h.callers, h.removed⟩
  | add args independent =>
    cases hs
    split
    · exact h
    · unfold ListenerBook.add
      split
      next l hl =>
        refine ⟨h.list, h.independent, fun t ht l' hl' => ?_, h.removed⟩
        cases independent with
        | false => exact h.callers t ht l' hl'
        | true =>
          rcases List.mem_cons.mp ht with rfl | ht
          · cases hl'
            exact h.list l (found_mem hl)
          · exact h.callers t ht l' hl'
      next =>
        refine ⟨h.list, h.independent, fun t ht l' hl' => ?_, h.removed⟩
        rcases List.mem_cons.mp ht with rfl | ht
        · cases hl'
        · exact h.callers t ht l' hl'
  | link args independent memory =>
    simp only [bookMove] at hs
    split at hs
    · split at hs
      · cases hs
        refine ⟨fun l hl => ?_, fun l hl => Nat.lt_succ_of_lt (h.independent l hl), fun t ht l hl => ?_,
          fun p hp => Nat.lt_succ_of_lt (h.removed p hp)⟩
        · rcases List.mem_append.mp hl with hl | hl
          · exact Nat.lt_succ_of_lt (h.list l hl)
          · rw [List.mem_singleton.mp hl]
            exact Nat.lt_succ_self _
        · rcases mem_proceed ht with ht | ht
          · exact Nat.lt_succ_of_lt (h.callers t ht l hl)
          · cases independent with
            | false => cases ht
            | true =>
              rw [List.mem_singleton.mp ht] at hl
              cases hl
              exact Nat.lt_succ_self _
      · cases hs
        refine ⟨h.list, h.independent, fun t ht l hl => ?_, h.removed⟩
        rcases mem_proceed ht with ht | ht
        · exact h.callers t ht l hl
        · cases ht
    · cases hs
  | mark l =>
    simp only [bookMove] at hs
    split at hs
    next hmem =>
      cases hs
      refine ⟨h.list, fun l' hl' => ?_, fun t ht l' hl' => ?_, h.removed⟩
      · rcases List.mem_cons.mp hl' with rfl | hl'
        · exact h.callers _ hmem _ rfl
        · exact h.independent l' hl'
      · rcases mem_proceed ht with ht | ht
        · exact h.callers t ht l' hl'
        · cases ht
    · cases hs
  | move l sa =>
    simp only [bookMove] at hs
    split at hs
    next hmem =>
      split at hs
      · cases hs
        exact h
      · split at hs
        · split at hs <;> cases hs <;> exact ⟨h.list, h.independent, h.callers, h.removed⟩
        · cases hs
          refine ⟨h.list, h.independent, fun t ht l' hl' => ?_, h.removed⟩
          rcases List.mem_cons.mp ht with rfl | ht
          · cases hl'
            exact h.list l hmem
          · exact h.callers t ht l' hl'
    · cases hs
  | moved l c memory =>
    simp only [bookMove] at hs
    split at hs
    · split at hs
      · cases hs
        exact ⟨h.list, h.independent, h.callers, h.removed⟩
      · cases hs
        refine ⟨h.list, h.independent, fun t ht l' hl' => ?_, h.removed⟩
        rcases mem_proceed ht with ht | ht
        · exact h.callers t ht l' hl'
        · cases ht
    · cases hs

theorem bookBounded_new : BookBounded .new :=
  ⟨fun _ hl => (by cases hl), fun _ hl => (by cases hl), fun _ ht => (by cases ht), fun _ hp => (by cases hp)⟩

end Steps

end Connio
