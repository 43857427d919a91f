import Connio.History
import Connio.Lib.Transition

/-!
# The asynchronous queue as an abstract machine

What the queue of one conn is for, without pointers, threads or locks: events are appended to a list,
started into three class slots, and leave them; the first problem is recorded; one transaction after
the other is submitted, completed and ended.  `QueueStep` lists everything that can happen to this state
while the event lock is held, one constructor for each thing, with the condition under which it happens.

* `QueueState`, `QueueLabel`, `QueueStep` — the machine;
* `StateInv`, `SlotInv` — **PROVED** invariants: an idle or completed conn has nothing queued and no
  active event, an active event is in the slot of its class, and an active connect event is alone;
* `queueStep_frame` — what a step leaves alone: the types of allocated events, and the log but for its
  newest entries.

`QueueRefinement` shows that the code refines this machine; `Scheduling` and `Summary` go on from `QueueStep` alone with
the order of the events, the completion and the summary.
-/

namespace Connio

open Connio.Lib

/-! ### The machine -/

structure QueueState where
  queued : List EventId
  active : Slots (Option EventId)
  problem : Option AsyncProblem
  state : ConnState
  threads : ℕ
  typeOf : EventId → ConnEventType
  log : List LogEntry

namespace QueueState

def classOf (v : QueueState) (e : EventId) : ConnEventClass := (v.typeOf e).eventClass

/-- No event is active. -/
def Inactive (v : QueueState) : Prop := ∀ k, v.active.get k = none

/-- Write the newest entry of the log. -/
def write (v : QueueState) (x : LogEntry) : QueueState := { v with log := x :: v.log }

/-- The first problem. -/
def record (v : QueueState) (p : AsyncProblem) : QueueState :=
  { v with problem := some p }.write (.report p)

/-- Drop everything that is queued. -/
def dropQueue (v : QueueState) : QueueState :=
  { v with queued := [], log := discards v.queued ++ v.log }

/-- The first problem, with the queue dropped. -/
def abort (v : QueueState) (p : AsyncProblem) : QueueState := (v.record p).dropQueue

/-- Empty the slot of `e`. -/
def vacate (v : QueueState) (e : EventId) (st : ConnEventStatus) (err : Errno) (src : CodeSource) :
    QueueState :=
  { v with active := v.active.set (v.classOf e) none }.write (.leave e st err src)

end QueueState

/-- The states a queue goes through. -/
def ConnState.IsAsync (st : ConnState) : Prop :=
  st = .idle ∨ st = .asynchronousClient ∨ st = .asynchronousEngine ∨ st = .asynchronousEngineComplete

/-- The results that abort a transaction. -/
def ConnEventStatus.IsFailure (st : ConnEventStatus) : Prop :=
  st = .timedOut ∨ st = .failed ∨ st = .killed

/-- `e`, queued behind the events of `a`, can be started. -/
structure Startable (v : QueueState) (a : List EventId) (e : EventId) : Prop where
  problem : v.problem = none
  state : v.state = .asynchronousClient ∨ v.state = .asynchronousEngine
  threads : 0 < v.threads
  connect_free : v.active.connect = none
  slot_free : v.active.get (v.classOf e) = none
  /-- only events of the other direction are overtaken -/
  skipped : ∀ y ∈ a, v.classOf y ≠ .connect ∧ v.classOf y ≠ v.classOf e ∧ v.classOf e ≠ .connect
  alone : v.classOf e = .connect → v.Inactive

/-- A thread brings back the active event `e` with a final status. -/
structure Finishing (v : QueueState) (e : EventId) (st : ConnEventStatus) : Prop where
  slot : v.active.get (v.classOf e) = some e
  threads : 0 < v.threads
  final : st ≠ .queued ∧ st ≠ .inProgress

inductive QueueLabel where
  | alloc (e : EventId) (t : ConnEventType)
  | quiet (x : LogEntry)
  | enterClient
  | append (e : EventId)
  | drop (e : EventId)
  | dropShutdown (e : EventId)
  | abort
  | again
  | enter
  | start (e : EventId)
  | finish (e : EventId) (st : ConnEventStatus)
  | exit
  | exitDone
  | submit
  | submitEmpty
  | prepare
  deriving DecidableEq, Repr

/-- **Everything that can happen to the queue of a conn.** -/
inductive QueueStep : QueueState → QueueLabel → QueueState → Prop
  | alloc {v : QueueState} {e : EventId} {t : ConnEventType} (fresh : e ∉ allocated v.log) :
      QueueStep v (.alloc e t)
        ({ v with typeOf := Function.update v.typeOf e t }.write (.alloc e))
  | quiet {v : QueueState} {x : LogEntry} (hq : x.isQuiet = true) :
      QueueStep v (.quiet x) (v.write x)
  | enterClient {v : QueueState} (state : v.state = .idle) :
      QueueStep v .enterClient { v with state := .asynchronousClient }
  /-- an accepted event is queued -/
  | append {v : QueueState} {e : EventId} (state : v.state = .asynchronousClient)
      (problem : v.problem = none) (alloc : e ∈ allocated v.log) (fresh : e ∉ accepted v.log) :
      QueueStep v (.append e)
        (({ v with queued := v.queued ++ [e] }.write (.accept e)).write (.append e))
  /-- an accepted event is dropped because there has been a problem -/
  | drop {v : QueueState} {e : EventId} (state : v.state = .asynchronousClient)
      (problem : v.problem ≠ none) (alloc : e ∈ allocated v.log) (fresh : e ∉ accepted v.log) :
      QueueStep v (.drop e) ((v.write (.accept e)).write (.drop e))
  /-- an accepted event is dropped because the handle is shutting down; the queue stays -/
  | dropShutdown {v : QueueState} {e : EventId} {src : CodeSource}
      (state : v.state = .asynchronousClient) (problem : v.problem = none)
      (alloc : e ∈ allocated v.log) (fresh : e ∉ accepted v.log) :
      QueueStep v (.dropShutdown e)
        (((v.write (.accept e)).record ⟨.killed, Errno.eshutdown, src⟩).write (.drop e))
  | abort {v : QueueState} {p : AsyncProblem} (problem : v.problem = none)
      (failure : p.status.IsFailure) : QueueStep v .abort (v.abort p)
  /-- a later problem changes nothing -/
  | again {v : QueueState} {p : AsyncProblem} (problem : v.problem ≠ none)
      (failure : p.status.IsFailure) : QueueStep v .again (v.write (.report p))
  | enter {v : QueueState} (state : v.state = .asynchronousClient ∨ v.state = .asynchronousEngine) :
      QueueStep v .enter ({ v with threads := v.threads + 1 }.write .enter)
  | start {v : QueueState} {a b : List EventId} {e : EventId} (queued : v.queued = a ++ e :: b)
      (startable : Startable v a e) :
      QueueStep v (.start e)
        ({ v with queued := a ++ b, active := v.active.set (v.classOf e) (some e) }.write (.start e))
  | finishCancelled {v : QueueState} {e : EventId} {st : ConnEventStatus} {err : Errno}
      {src : CodeSource} (fin : Finishing v e st) (problem : v.problem ≠ none) :
      QueueStep v (.finish e st) ((v.vacate e st err src).write (.cancel e))
  | finishFailed {v : QueueState} {e : EventId} {st : ConnEventStatus} {err : Errno}
      {src : CodeSource} (fin : Finishing v e st) (problem : v.problem = none)
      (failure : st.IsFailure) :
      QueueStep v (.finish e st) ((v.vacate e st err src).abort ⟨st, err, src⟩)
  /-- a partial result is recorded as a problem; the queue stays -/
  | finishPartial {v : QueueState} {e : EventId} {err : Errno} {src : CodeSource}
      (fin : Finishing v e .partialResult) (problem : v.problem = none) :
      QueueStep v (.finish e .partialResult)
        ((v.vacate e .partialResult err src).record ⟨.partialResult, err, src⟩)
  | finishShutdown {v : QueueState} {e : EventId} {err : Errno} {src : CodeSource}
      (fin : Finishing v e .complete) (problem : v.problem = none) :
      QueueStep v (.finish e .complete)
        (((v.vacate e .complete err src).write (.cancel e)).abort ⟨.killed, Errno.eshutdown, src⟩)
  | finishComplete {v : QueueState} {e : EventId} {err : Errno} {src : CodeSource}
      (fin : Finishing v e .complete) (problem : v.problem = none) :
      QueueStep v (.finish e .complete) (v.vacate e .complete err src)
  /-- a thread leaves, because nothing can be started, and something is left to others -/
  | exit {v : QueueState} (threads : 0 < v.threads)
      (state : v.state = .asynchronousClient ∨ v.state = .asynchronousEngine)
      (stuck : v.problem ≠ none ∨ v.queued = [] ∨ ¬ v.Inactive)
      (others : v.queued ≠ [] ∨ ¬ v.Inactive) :
      QueueStep v .exit { v with threads := v.threads - 1 }
  /-- a thread leaves an empty queue that is not submitted yet, or beside other threads -/
  | exitEmpty {v : QueueState} (threads : 0 < v.threads)
      (state : v.state = .asynchronousClient ∨ v.state = .asynchronousEngine)
      (queued : v.queued = []) (inactive : v.Inactive)
      (others : v.state = .asynchronousClient ∨ 1 < v.threads) :
      QueueStep v .exit ({ v with threads := v.threads - 1 }.write (.lastTest v.state))
  /-- the last thread leaves a submitted queue on which everything is done -/
  | exitDone {v : QueueState} (threads : v.threads = 1) (state : v.state = .asynchronousEngine)
      (queued : v.queued = []) (inactive : v.Inactive) :
      QueueStep v .exitDone
        (({ v with threads := 0, state := .asynchronousEngineComplete }.write
          (.lastTest .asynchronousEngine)).write .done)
  /-- the transaction is submitted, and the submitting thread enters -/
  | submit {v : QueueState} (state : v.state = .asynchronousClient) :
      QueueStep v .submit
        (({ v with state := .asynchronousEngine, threads := v.threads + 1 }.write .submit).write
          .enter)
  /-- a submit without events -/
  | submitEmpty {v : QueueState} {p : AsyncProblem} (state : v.state = .idle)
      (problem : v.problem = none) (failure : p.status.IsFailure) :
      QueueStep v .submitEmpty
        ((({ v with state := .asynchronousEngine, threads := v.threads + 1 }.record p).write
          .submit).write .enter)
  /-- a submit without events, after a problem -/
  | submitAgain {v : QueueState} {p : AsyncProblem} (state : v.state = .idle)
      (problem : v.problem ≠ none) :
      QueueStep v .submitEmpty
        (((({ v with state := .asynchronousEngine, threads := v.threads + 1 } : QueueState).write
          (.report p)).write .submit).write .enter)
  | prepare {v : QueueState} {sm : AsyncSummary} (state : v.state = .asynchronousEngineComplete)
      (status : sm.status = match v.problem with
        | none => .complete
        | some p => p.status)
      (reported : sm.problem = v.problem.map fun p => (p.error, p.source)) :
      QueueStep v .prepare
        ({ v with queued := [], problem := none, threads := 0, state := .idle }.write (.prepare sm))

/-! ### What a step leaves alone -/

theorem abort_suffix (v : QueueState) (p : AsyncProblem) : v.log.IsSuffix (v.abort p).log :=
  (List.suffix_cons _ _).trans (List.suffix_append _ _)

theorem vacate_suffix (v : QueueState) (e : EventId) (st : ConnEventStatus) (err : Errno)
    (src : CodeSource) : v.log.IsSuffix (v.vacate e st err src).log := List.suffix_cons _ _

theorem write_suffix (v : QueueState) (x : LogEntry) : v.log.IsSuffix (v.write x).log :=
  List.suffix_cons _ _

/-- **Frame.**  The log only grows, and the types of allocated events do not change. -/
theorem queueStep_frame {v v' : QueueState} {ℓ : QueueLabel} (h : QueueStep v ℓ v') :
    v.log.IsSuffix v'.log ∧ ∀ e ∈ allocated v.log, v'.typeOf e = v.typeOf e := by
  cases h with
  | alloc fresh =>
    refine ⟨List.suffix_cons _ _, fun x hx => Function.update_of_ne ?_ _ _⟩
    rintro rfl
    exact fresh hx
  | abort => exact ⟨abort_suffix _ _, fun _ _ => rfl⟩
  | finishFailed => exact ⟨(vacate_suffix v _ _ _ _).trans (abort_suffix _ _), fun _ _ => rfl⟩
  | finishShutdown =>
    exact ⟨((vacate_suffix v _ _ _ _).trans (write_suffix _ _)).trans (abort_suffix _ _),
      fun _ _ => rfl⟩
  | enterClient | exit => exact ⟨List.suffix_rfl, fun _ _ => rfl⟩
  | quiet | enter | start | finishComplete | exitEmpty | prepare | again =>
    exact ⟨List.suffix_cons _ _, fun _ _ => rfl⟩
  | append | drop | finishCancelled | finishPartial | exitDone | submit =>
    exact ⟨⟨[_, _], rfl⟩, fun _ _ => rfl⟩
  | dropShutdown | submitEmpty | submitAgain => exact ⟨⟨[_, _, _], rfl⟩, fun _ _ => rfl⟩

theorem allocated_mono {log log' : List LogEntry} (h : log.IsSuffix log') {e : EventId}
    (he : e ∈ allocated log) : e ∈ allocated log' :=
  (h.sublist.filterMap _).subset he

/-- The slots change in two ways only. -/
theorem queueStep_active {v v' : QueueState} {ℓ : QueueLabel} (h : QueueStep v ℓ v') :
    v'.active = v.active ∨
      (∃ a b e, v.queued = a ++ e :: b ∧ Startable v a e ∧
        v'.active = v.active.set (v.classOf e) (some e)) ∨
      (∃ e st, Finishing v e st ∧ v'.active = v.active.set (v.classOf e) none) := by
  cases h with
  | start queued startable => exact .inr (.inl ⟨_, _, _, queued, startable, rfl⟩)
  | finishCancelled fin _ | finishFailed fin _ _ | finishPartial fin _ | finishShutdown fin _
  | finishComplete fin _ => exact .inr (.inr ⟨_, _, fin, rfl⟩)
  | _ => exact .inl rfl

/-- What is queued was queued before or has just been appended. -/
theorem queueStep_queued {v v' : QueueState} {ℓ : QueueLabel} (h : QueueStep v ℓ v') :
    ∀ e ∈ v'.queued, e ∈ v.queued ∨ e ∈ allocated v.log := by
  cases h with
  | append _ _ alloc _ =>
    intro x hx
    rcases List.mem_append.mp hx with hx | hx
    · exact .inl hx
    · exact .inr (List.mem_singleton.mp hx ▸ alloc)
  | start queued _ =>
    intro x hx
    rw [queued]
    rcases List.mem_append.mp hx with hx | hx
    · exact .inl (List.mem_append_left _ hx)
    · exact .inl (List.mem_append_right _ (List.mem_cons_of_mem _ hx))
  | abort | finishFailed | finishShutdown | prepare => intro x hx; cases hx
  | _ => exact fun x hx => .inl hx

/-! ### The basic invariant -/

/-- What the slots hold. -/
structure SlotInv (v : QueueState) : Prop where
  slot_class : ∀ k e, v.active.get k = some e → v.classOf e = k
  connect_alone : v.active.connect ≠ none → v.active.receive = none ∧ v.active.send = none
  slot_allocated : ∀ k e, v.active.get k = some e → e ∈ allocated v.log
  queued_allocated : ∀ e ∈ v.queued, e ∈ allocated v.log

/-- What a state says about the queue. -/
structure StateInv (v : QueueState) : Prop where
  async : v.state.IsAsync
  idle : v.state = .idle → v.queued = [] ∧ v.Inactive ∧ v.threads = 0
  complete : v.state = .asynchronousEngineComplete → v.queued = [] ∧ v.Inactive ∧ v.threads = 0

theorem Slots.get_set {β : Type} (s : Slots β) (k k' : ConnEventClass) (x : β) :
    (s.set k x).get k' = if k' = k then x else s.get k' := by
  by_cases h : k' = k
  · rw [h, Slots.get_set_self, if_pos rfl]
  · rw [Slots.get_set_of_ne _ h, if_neg h]

/-- Emptying a slot keeps what is known of the others. -/
theorem get_of_get_set_none {s : Slots (Option EventId)} {k k' : ConnEventClass} {e : EventId}
    (h : (s.set k none).get k' = some e) : s.get k' = some e := by
  rw [Slots.get_set] at h
  split at h
  · cases h
  · exact h

theorem slotInv_step {v v' : QueueState} {ℓ : QueueLabel} (hinv : SlotInv v)
    (h : QueueStep v ℓ v') : SlotInv v' := by
  obtain ⟨hlog, htype⟩ := queueStep_frame h
  have hclass : ∀ e ∈ allocated v.log, v'.classOf e = v.classOf e := fun e he => by
    rw [QueueState.classOf, htype e he]
    rfl
  have hqueued : ∀ e ∈ v'.queued, e ∈ allocated v'.log := fun e he => by
    rcases queueStep_queued h e he with he | he
    · exact allocated_mono hlog (hinv.queued_allocated e he)
    · exact allocated_mono hlog he
  -- events that were active before
  have hold : ∀ k e, v.active.get k = some e → v'.classOf e = k ∧ e ∈ allocated v'.log :=
    fun k e hk => by
      have halloc := hinv.slot_allocated k e hk
      exact ⟨(hclass e halloc).trans (hinv.slot_class k e hk), allocated_mono hlog halloc⟩
  rcases queueStep_active h with hact | ⟨a, b, e, hq, hs, hact⟩ | ⟨e, st, _, hact⟩
  · refine ⟨?_, ?_, ?_, hqueued⟩ <;> rw [hact]
    · exact fun k e hk => (hold k e hk).1
    · exact hinv.connect_alone
    · exact fun k e hk => (hold k e hk).2
  · have he : e ∈ allocated v.log := hinv.queued_allocated e (by rw [hq]; simp)
    have hnew : ∀ k x, v'.active.get k = some x → v'.classOf x = k ∧ x ∈ allocated v'.log := by
      intro k x hk
      rw [hact, Slots.get_set] at hk
      split at hk
      · next hkk =>
        cases hk
        exact ⟨(hclass _ he).trans hkk.symm, allocated_mono hlog he⟩
      · exact hold k x hk
    refine ⟨fun k x hk => (hnew k x hk).1, ?_, fun k x hk => (hnew k x hk).2, hqueued⟩
    rw [hact]
    intro hne
    by_cases hc : v.classOf e = .connect
    · have halone := hs.alone hc
      rw [hc]
      exact ⟨halone .receive, halone .send⟩
    · exfalso
      apply hne
      show (v.active.set (v.classOf e) (some e)).get .connect = none
      rw [Slots.get_set_of_ne _ (Ne.symm hc)]
      exact hs.connect_free
  · refine ⟨?_, ?_, ?_, hqueued⟩ <;> rw [hact]
    · exact fun k x hk => (hold k x (get_of_get_set_none hk)).1
    · intro hne
      have halone : v.active.receive = none ∧ v.active.send = none := by
        apply hinv.connect_alone
        intro hc
        apply hne
        cases v.classOf e <;> simp [Slots.set, hc]
      cases v.classOf e <;> simp [Slots.set, halone]
    · exact fun k x hk => (hold k x (get_of_get_set_none hk)).2

/-- A conn in client or engine mode is bound by nothing. -/
theorem StateInv.busy {v : QueueState}
    (h : v.state = .asynchronousClient ∨ v.state = .asynchronousEngine) : StateInv v := by
  refine ⟨?_, ?_, ?_⟩
  · rcases h with h | h <;> simp [ConnState.IsAsync, h]
  · rcases h with h | h <;> simp [h]
  · rcases h with h | h <;> simp [h]

/-- A thread works for the conn only in client or engine mode. -/
theorem StateInv.busy_of_threads {v : QueueState} (hinv : StateInv v) (h : 0 < v.threads) :
    v.state = .asynchronousClient ∨ v.state = .asynchronousEngine := by
  rcases hinv.async with hs | hs | hs | hs
  · have := (hinv.idle hs).2.2
    omega
  · exact .inl hs
  · exact .inr hs
  · have := (hinv.complete hs).2.2
    omega

theorem stateInv_step {v v' : QueueState} {ℓ : QueueLabel} (hinv : StateInv v)
    (h : QueueStep v ℓ v') : StateInv v' := by
  cases h with
  | alloc | quiet => exact ⟨hinv.async, hinv.idle, hinv.complete⟩
  | enterClient | submit | submitEmpty | submitAgain => exact .busy (by simp [QueueState.write, QueueState.record])
  | append state | drop state | dropShutdown state => exact .busy (.inl state)
  | again => exact ⟨hinv.async, hinv.idle, hinv.complete⟩
  | abort =>
    exact ⟨hinv.async, fun hi => ⟨rfl, (hinv.idle hi).2⟩, fun hc => ⟨rfl, (hinv.complete hc).2⟩⟩
  | enter state => exact .busy state
  | start _ startable => exact .busy startable.state
  | finishCancelled fin | finishFailed fin | finishPartial fin | finishShutdown fin
  | finishComplete fin => exact .busy (hinv.busy_of_threads fin.threads)
  | exit _ state | exitEmpty _ state => exact .busy state
  | exitDone _ _ queued inactive =>
    refine ⟨.inr (.inr (.inr rfl)), fun hi => ?_, fun _ => ⟨queued, inactive, rfl⟩⟩
    cases hi
  | prepare state =>
    refine ⟨.inl rfl, fun _ => ⟨rfl, (hinv.complete state).2.1, rfl⟩, fun hc => ?_⟩
    cases hc

end Connio
