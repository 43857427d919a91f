import Connio.Duplex
import Connio.Transaction
import Connio.Progress

/-!
# Every submit is called back once

What a whole run of a conn does with the transactions it submits.  The consumer's callback is called by the steps
`.call`; the completion threads, which count from `AThreadBegin` on, carry the summaries of the transactions that have
ended and are not told yet.  The conn is used asynchronously only.

* `submits`, `prepared` — the submits of a history, and the summaries of the transactions it has ended;
* `submits_eq` — **PROVED**: a history has ended each transaction it submitted, but for the one that is running;
* `asyncStep_told` — **PROVED**: one step neither loses a summary nor tells one that was not made;
* `run_calledBack` — **PROVED**: along every run the summaries told and those on their way are the summaries made,
  and there are as many callbacks as submits, but for the transactions that are still running or on their way;
* `socketIsIdle`, `AsyncSystem.Resting`, `reachable_resting` — **PROVED**: a conn that is idle, or whose transaction is
  complete, has no thread, no active event and nothing in the engine, as `QueueCompleteNotify` asserts.
-/

namespace Connio

open Connio.Lib

/-! ### Submits and ends in the history -/

def LogEntry.prepare? : LogEntry → Option AsyncSummary
  | .prepare summary => some summary
  | _ => none

/-- The summaries that `PrepareForCallback` has made, newest first. -/
def prepared (log : List LogEntry) : List AsyncSummary := log.filterMap LogEntry.prepare?

/-- How often `EventsSubmit` has handed the conn to the engine. -/
def submits (log : List LogEntry) : ℕ := (log.filterMap LogEntry.mark?).count .submit

/-- **Each submitted transaction but the running one has ended (proved).** -/
theorem submits_eq {log : List LogEntry} (h : Entrywise LifeEntry log) :
    submits log = (prepared log).length +
      if lastMark log = some .submit ∨ lastMark log = some .done then 1 else 0 := by
  induction log with
  | nil => simp [submits, prepared, lastMark]
  | cons x log ih =>
    obtain ⟨hx, hlog⟩ := h
    have ih := ih hlog
    cases x with
    | submit =>
      have hidle : ¬ (lastMark log = some .submit ∨ lastMark log = some .done) := by
        rcases hx with hx | hx <;> simp [hx]
      rw [if_neg hidle] at ih
      show (LogEntry.Mark.submit :: log.filterMap LogEntry.mark?).count .submit = (prepared log).length + _
      rw [List.count_cons_self, if_pos (.inl rfl)]
      exact congrArg (· + 1) ih
    | done =>
      rw [if_pos (.inl hx)] at ih
      show (LogEntry.Mark.done :: log.filterMap LogEntry.mark?).count .submit = (prepared log).length + _
      rw [List.count_cons_of_ne (by simp), if_pos (.inr rfl)]
      exact ih
    | prepare summary =>
      rw [if_pos (.inr hx)] at ih
      show (LogEntry.Mark.prepare :: log.filterMap LogEntry.mark?).count .submit = (prepared log).length + 1 + _
      rw [List.count_cons_of_ne (by simp), if_neg (by simp [lastMark, LogEntry.mark?])]
      exact ih
    | _ => exact ih

/-- The transaction that is running, or has not been told of. -/
theorem LifeInv.submits {v : QueueState} (h : LifeInv v) (hasync : v.state.IsAsync) :
    submits v.log = (prepared v.log).length + (if v.state = .asynchronousEngine then 1 else 0) +
      if v.state = .asynchronousEngineComplete then 1 else 0 := by
  rw [submits_eq h.entries]
  have hmark := h.mark
  rcases hasync with hs | hs | hs | hs <;> rw [hs] at hmark ⊢
  · rcases hmark with hm | hm <;> simp [hm]
  · rcases hmark with hm | hm <;> simp [hm]
  · simp [show lastMark v.log = some .submit from hmark]
  · simp [show lastMark v.log = some .done from hmark]

/-- Entries that end no transaction. -/
theorem prepared_append {xs log : List LogEntry} (h : ∀ x ∈ xs, x.isPrepare = false) :
    prepared (xs ++ log) = prepared log := by
  have hnone : ∀ x ∈ xs, x.prepare? = none := fun x hx => by
    have hx := h x hx
    cases x with
    | prepare => cases hx
    | _ => rfl
  rw [prepared, List.filterMap_append, List.filterMap_eq_nil_iff.mpr hnone]
  rfl

/-- Only `PrepareForCallback` ends a transaction. -/
theorem LockRun.prepared {kind : LockKind} {c c' : Conn} (h : LockRun kind c c') :
    prepared c'.log = prepared c.log := by
  induction h with
  | refl => rfl
  | tail _ hstep ih =>
    rw [← ih]
    cases hstep with
    | same _ _ _ _ hlog _ _ => rw [hlog]
    | @note x hx =>
      simp only [LogEntry.isBookkeeping, Bool.and_eq_true, Bool.not_eq_true'] at hx
      exact @prepared_append [x] _ fun y hy => List.mem_singleton.mp hy ▸ hx.1.1.2
    | append | leave | problem | kill | sslNewFree | close | sslEnabled => rfl

theorem Quiet.prepared {c c' : Conn} (h : Quiet c c') : prepared c'.log = prepared c.log := by
  obtain ⟨xs, hxs, hlog⟩ := h.log
  rw [hlog]
  refine prepared_append fun x hx => ?_
  have hquiet := hxs x hx
  cases x with
  | prepare => cases hquiet
  | _ => rfl

/-! ### Summaries told and summaries on their way -/

/-- The summary that a step gives to the consumer. -/
def AsyncAction.told : AsyncAction → Option AsyncSummary
  | .call (.calling summary _) => some summary
  | _ => none

/-- The summary that a completion thread carries, once it has ended the transaction. -/
def Completion.summary? : Completion → Option AsyncSummary
  | .starting => none
  | .destroying summary _ _ => some summary
  | .calling summary _ => some summary

/-- The summaries on their way to the consumer. -/
def AsyncSystem.untold (s : AsyncSystem) : List AsyncSummary := s.completions.filterMap Completion.summary?

/-- A thread about to end its transaction carries no summary yet. -/
theorem length_completions (l : List Completion) :
    l.length = (l.filterMap Completion.summary?).length + l.count .starting := by
  induction l with
  | nil => rfl
  | cons x l ih =>
    cases x with
    | starting =>
      rw [List.filterMap_cons_none rfl, List.count_cons_self, List.length_cons, ih]
      omega
    | destroying summary freeList mark | calling summary mark =>
      show l.length + 1 = (l.filterMap Completion.summary?).length + 1 + _
      rw [List.count_cons_of_ne (by simp), ih]
      omega

/-- A completion thread goes on, or is gone. -/
theorem count_untold_erase {l : List Completion} {x : Completion} (hx : x ∈ l) (sm : AsyncSummary) :
    (l.filterMap Completion.summary?).count sm =
      x.summary?.toList.count sm + ((l.erase x).filterMap Completion.summary?).count sm := by
  rw [((List.perm_cons_erase hx).filterMap Completion.summary?).count_eq]
  cases hsum : x.summary? with
  | none =>
    rw [List.filterMap_cons_none hsum, Option.toList_none, List.count_nil, Nat.zero_add]
  | some y =>
    rw [List.filterMap_cons_some hsum, Option.toList_some, List.count_cons, List.count_cons, List.count_nil]
    omega

theorem AsyncSystem.outcome_untold (s : AsyncSystem) (r : Outcome × Conn) : (s.outcome r).untold = s.untold := by
  obtain ⟨o, c'⟩ := r
  rcases o with _ | (_ | _) <;> rfl

/-- The steps of a completion thread. -/
def AsyncAction.isCompletion : AsyncAction → Bool
  | .prepare | .destroy _ | .call _ => true
  | _ => false

/-- Only the completion threads handle summaries. -/
theorem asyncStep_untold {s s' : AsyncSystem} {a : AsyncAction} (h : asyncStep s a = some s')
    (ha : a.isCompletion = false) : s'.untold = s.untold := by
  cases a with
  | prepare | destroy | call => cases ha
  | enqueueFailure | kill | handleAbort | writeAbort | shuttingDown | waitForSubmit | sendBuffer | pollReady
  | pollTimeout =>
    cases h
    rfl
  | alloc | store =>
    simp only [asyncStep] at h
    split at h <;> cases h
    rfl
  | enqueue connEvent allocs source =>
    simp only [asyncStep] at h
    split at h <;> cases h
    unfold AsyncSystem.enqueue
    simp only []
    split
    next r _ => rw [AsyncSystem.outcome_untold]; rfl
    · cases connEvent <;> rfl
  | submit qFailure client source =>
    simp only [asyncStep] at h
    split at h <;> cases h
    · exact s.outcome_untold _
    · rfl
  | free e =>
    simp only [asyncStep] at h
    split at h
    · cases h
      rfl
    · split at h <;> cases h
      rfl
  | work w m =>
    simp only [asyncStep] at h
    split at h
    · split at h <;> cases h
      rfl
    · cases h
  | relock w =>
    simp only [asyncStep] at h
    split at h
    · split at h <;> cases h
      exact AsyncSystem.outcome_untold _ _
    · cases h
  | handle k =>
    simp only [asyncStep] at h
    split at h <;> cases h
    rfl
  | enter cb =>
    simp only [asyncStep] at h
    split at h <;> cases h
    exact AsyncSystem.outcome_untold _ _

/-- **One step (proved):** a summary is made, goes on or is told, and none is lost. -/
theorem asyncStep_told {s s' : AsyncSystem} {a : AsyncAction} (hinv : AsyncInv s) (h : asyncStep s a = some s')
    (sm : AsyncSummary) :
    a.told.toList.count sm + s'.untold.count sm + (prepared s.conn.log).count sm =
      s.untold.count sm + (prepared s'.conn.log).count sm := by
  cases hcompletion : a.isCompletion with
  | false =>
    have htold : a.told = none := by
      cases a with
      | call => cases hcompletion
      | _ => rfl
    have hlog : prepared s'.conn.log = prepared s.conn.log := by
      cases asyncStep_run hinv h (fun heq => by rw [heq] at hcompletion; cases hcompletion) with
      | lock run => exact run.prepared
      | quiet quiet => exact quiet.prepared
    rw [asyncStep_untold h hcompletion, hlog, htold, Option.toList_none, List.count_nil]
    omega
  | true =>
    cases a with
    | prepare =>
      simp only [asyncStep] at h
      split at h <;> cases h
      next hmem =>
      have herase := count_untold_erase hmem sm
      show 0 + ((preserveAsyncSummary s.conn.transaction ::
        (s.completions.erase .starting).filterMap Completion.summary?).count sm) + (prepared s.conn.log).count sm =
          (s.completions.filterMap Completion.summary?).count sm +
            (preserveAsyncSummary s.conn.transaction :: prepared s.conn.log).count sm
      simp only [List.count_cons, Completion.summary?, Option.toList_none, List.count_nil] at herase ⊢
      omega
    | destroy x =>
      simp only [asyncStep] at h
      split at h
      next summary freeList mark =>
        split at h <;> cases h
        next hmem =>
        have herase := count_untold_erase hmem sm
        have hlog := (connEventFreeListDestroy_quiet freeList s.conn).prepared
        show 0 + ((summary :: (s.completions.erase (.destroying summary freeList mark)).filterMap
          Completion.summary?).count sm) + (prepared s.conn.log).count sm =
            (s.completions.filterMap Completion.summary?).count sm +
              (prepared (connEventFreeListDestroy s.conn freeList).log).count sm
        rw [hlog]
        simp only [List.count_cons, Completion.summary?, Option.toList_some, List.count_nil] at herase ⊢
        omega
      · cases h
    | call x =>
      simp only [asyncStep] at h
      split at h
      next summary mark =>
        split at h <;> cases h
        next hmem =>
        have herase := count_untold_erase hmem sm
        show ([summary].count sm) + (((s.completions.erase (.calling summary mark)).filterMap
          Completion.summary?).count sm) + (prepared s.conn.log).count sm =
            (s.completions.filterMap Completion.summary?).count sm + (prepared s.conn.log).count sm
        simp only [Completion.summary?, Option.toList_some] at herase
        omega
      · cases h
    | _ => cases hcompletion

/-! ### Whole runs -/

/-- The summaries of a run, from any state. -/
theorem run_told {as : List AsyncAction} {s s' : AsyncSystem} (hinv : AsyncInv s)
    (hrun : runFrom asyncStep s as = some s') (sm : AsyncSummary) :
    AsyncInv s' ∧ (as.filterMap AsyncAction.told).count sm + s'.untold.count sm + (prepared s.conn.log).count sm =
      s.untold.count sm + (prepared s'.conn.log).count sm := by
  induction as generalizing s with
  | nil =>
    cases hrun
    exact ⟨hinv, Nat.zero_add _ ▸ rfl⟩
  | cons a as ih =>
    obtain ⟨t, hstep, hrest⟩ := Option.bind_eq_some_iff.mp hrun
    obtain ⟨hinv', htail⟩ := ih (asyncStep_effect hinv hstep).1 hrest
    have hhead := asyncStep_told hinv hstep sm
    refine ⟨hinv', ?_⟩
    have hcons : ((a :: as).filterMap AsyncAction.told).count sm =
        a.told.toList.count sm + (as.filterMap AsyncAction.told).count sm := by
      cases htold : a.told with
      | none =>
        rw [List.filterMap_cons_none htold, Option.toList_none, List.count_nil, Nat.zero_add]
      | some y =>
        rw [List.filterMap_cons_some htold, Option.toList_some, List.count_cons, List.count_cons, List.count_nil]
        omega
    omega

/-- **Every submit is called back once (proved).**  The summaries that a run has given to the consumer and those that
its completion threads carry are the summaries of the transactions it has ended; and every submit has been called back
but for the transaction that the engine works on and those of the completion threads. -/
theorem run_calledBack {as : List AsyncAction} {s s' : AsyncSystem} (hinit : s.Initial)
    (hrun : runFrom asyncStep s as = some s') :
    (as.filterMap AsyncAction.told ++ s'.untold).Perm (prepared s'.conn.log) ∧
      submits s'.conn.log = (as.filterMap AsyncAction.told).length + s'.completions.length +
        if s'.conn.state = .asynchronousEngine then 1 else 0 := by
  have hperm : (as.filterMap AsyncAction.told ++ s'.untold).Perm (prepared s'.conn.log) := by
    rw [List.perm_iff_count]
    intro sm
    have hcount := (run_told (.initial hinit) hrun sm).2
    have huntold : s.untold = [] := by
      rw [AsyncSystem.untold, hinit.completions]
      rfl
    rw [huntold, hinit.log] at hcount
    rw [List.count_append]
    simpa [prepared] using hcount
  have hinv := asyncInv_reachable hinit (reachable_of_runFrom hrun)
  refine ⟨hperm, ?_⟩
  have hsubmits := hinv.queue.life.submits hinv.queue.state.async
  have hlength := hperm.length_eq
  have hcompletions := length_completions s'.completions
  rw [hinv.completing] at hcompletions
  rw [List.length_append] at hlength
  change submits s'.conn.log = (prepared s'.conn.log).length +
    (if s'.conn.state = .asynchronousEngine then 1 else 0) +
      if s'.conn.state = .asynchronousEngineComplete then 1 else 0 at hsubmits
  have huntold : s'.untold.length = (s'.completions.filterMap Completion.summary?).length := rfl
  omega

/-- What `partialRun` makes known: the read has ended with a partial result. -/
def partialSummary : AsyncSummary where
  status := .partialResult
  sent := 0
  received := 0
  client := 0
  problem := some (Errno.emsgsize, ⟨0, 2⟩)

/-- A write and a read with a partial result: the summary has been made, and the completion thread carries it. -/
theorem run_calledBack_partialResult : ∃ s, runFrom asyncStep (.new (some 3)) (partialRun [] ++ [.prepare]) = some s ∧
    s.untold = [partialSummary] ∧ prepared s.conn.log = [partialSummary] ∧ submits s.conn.log = 1 := by
  have hobs : (runFrom asyncStep (.new (some 3)) (partialRun [] ++ [.prepare])).map (fun s =>
      (s.conn.state, s.completions.length, s.untold)) = some (.idle, 1, [partialSummary]) := by
    decide +kernel
  obtain ⟨s, hs, hobs⟩ := Option.map_eq_some_iff.mp hobs
  simp only [Prod.mk.injEq] at hobs
  obtain ⟨hstate, hcompletions, huntold⟩ := hobs
  obtain ⟨hperm, hsubmits⟩ := run_calledBack (AsyncSystem.new_initial (some 3)) hs
  -- the run makes no callback
  have htold : (partialRun [] ++ [AsyncAction.prepare]).filterMap AsyncAction.told = [] := by
    decide
  rw [htold, hcompletions, hstate] at hsubmits
  rw [htold, huntold] at hperm
  exact ⟨s, hs, huntold, (List.singleton_perm.mp hperm).symm, hsubmits⟩

/-! ### A conn between two transactions -/

/-- `SocketIsIdle`: no socket event is linked. -/
def socketIsIdle (sp : SOCK) : Bool := sp.event.connect.arg.isNone && sp.event.receive.arg.isNone && sp.event.send.arg.isNone

/-- `connIsIdle` -/
def connIsIdle (c : Conn) : Bool :=
  c.activeEvent.connect.isNone && c.activeEvent.receive.isNone && c.activeEvent.send.isNone

/-- **Nothing works for the conn,** and nothing is queued. -/
structure AsyncSystem.Resting (s : AsyncSystem) : Prop where
  workers : s.workers = []
  callbacks : s.callbacks = []
  queued : s.conn.queued = []
  threads : s.conn.transaction.threads = 0
  connIsIdle : connIsIdle s.conn = true
  socketIsIdle : socketIsIdle s.conn.sp = true
  /-- no thread has been begun, and nothing waits in epoll -/
  engine : ∀ k, (s.conn.sp.event.get k).inEngine = false ∧ (s.conn.sp.event.get k).begun = 0

theorem AsyncInv.resting {s : AsyncSystem} (hinv : AsyncInv s) (hqueued : s.conn.queued = [])
    (hinactive : ∀ k, s.conn.activeEvent.get k = none) (hthreads : s.conn.transaction.threads = 0) : s.Resting := by
  have hnone : ∀ x, x ∉ s.processing := fun x hx => by
    have hslot := hinv.slot_of_processing hx
    rw [hinactive] at hslot
    cases hslot
  have hunlinked : ∀ k, (s.conn.sp.event.get k).arg = none := fun k => by
    cases harg : (s.conn.sp.event.get k).arg with
    | none => rfl
    | some x => exact absurd (AsyncSystem.processing_of_linked harg) (hnone x)
  refine ⟨?_, ?_, hqueued, hthreads, ?_, ?_, fun k => (hinv.socket k).idle (hunlinked k)⟩
  · exact List.length_eq_zero_iff.mp (hinv.threads.symm.trans hthreads)
  · refine List.eq_nil_iff_forall_not_mem.mpr fun cb hcb => ?_
    exact hnone _ (AsyncSystem.processing_of_callback hcb)
  · have h1 := hinactive .connect
    have h2 := hinactive .receive
    have h3 := hinactive .send
    simp only [Slots.get] at h1 h2 h3
    simp [Connio.connIsIdle, h1, h2, h3]
  · have h1 := hunlinked .connect
    have h2 := hunlinked .receive
    have h3 := hunlinked .send
    simp only [Slots.get] at h1 h2 h3
    simp [Connio.socketIsIdle, h1, h2, h3]

/-- **A conn without a transaction is at rest (proved),** when it is used asynchronously only: a synchronous call leaves
the state alone and takes a slot.  So is one whose transaction is complete: that is what `QueueCompleteNotify`,
`QueueCompleteCallback` and `PrepareForCallback` assert. -/
theorem reachable_resting {s s' : AsyncSystem} (hinit : s.Initial) (h : Reachable (enabled asyncStep) s s')
    (hstate : s'.conn.state = .idle ∨ s'.conn.state = .asynchronousEngineComplete) : s'.Resting := by
  have hinv := asyncInv_reachable hinit h
  rcases hstate with hs | hs
  · obtain ⟨hqueued, hinactive, hthreads⟩ := hinv.queue.state.idle hs
    exact hinv.resting hqueued hinactive hthreads
  · obtain ⟨hqueued, hinactive, hthreads⟩ := hinv.queue.state.complete hs
    exact hinv.resting hqueued hinactive hthreads

/-- The transaction that has a partial result, once it is complete. -/
theorem reachable_resting_complete : ∃ s : AsyncSystem, s.conn.state = .asynchronousEngineComplete ∧ s.Resting := by
  obtain ⟨s, hrun, hobs⟩ := Option.map_eq_some_iff.mp partialRun_complete
  simp only [AsyncSystem.observe, Prod.mk.injEq] at hobs
  exact ⟨s, hobs.1, reachable_resting (AsyncSystem.new_initial (some 3)) (reachableVia_of_runFrom hrun).reachable
    (.inr hobs.1)⟩

end Connio
