import Connio.Scheduling

/-!
# What the consumer is told

Facts about the abstract queue: the problem that is kept is the first one of the transaction.

* `firstProblem` — the oldest problem of a transaction's log;
* `LogEntry.isTrouble` — entries that do not occur in a transaction that goes well;
* `AsyncSummary.Faithful` — what the summary of a transaction says about the log of the transaction;
* `SummaryInv`, `summaryInv_step` — **PROVED**: the problem of the state is the first problem of the
  transaction, and a transaction without one has no trouble at all.
-/

namespace Connio

open Connio.Lib

/-- The oldest problem of a transaction's log. -/
def firstProblem (log : List LogEntry) : Option AsyncProblem := (problems log).getLast?

/-- A failure, a cancelled, dropped or discarded event, or a partial result. -/
def LogEntry.isTrouble : LogEntry → Bool
  | .cancel _ | .drop _ | .discard _ | .report _ => true
  | x => x.problem?.isSome

/-- `e` has left its slot with `CONN_EVENT_COMPLETE`. -/
def EndedComplete (log : List LogEntry) (e : EventId) : Prop :=
  ∃ err src, LogEntry.leave e .complete err src ∈ log

/-- **What a summary says about the log of its transaction.** -/
structure AsyncSummary.Faithful (sm : AsyncSummary) (log : List LogEntry) : Prop where
  complete : sm.status = .complete ↔
    (∀ e ∈ accepted log, EndedComplete log e) ∧ ∀ p, .report p ∉ log
  untroubled : sm.status = .complete → ∀ x ∈ log, x.isTrouble = false
  first : ∀ p, firstProblem log = some p → (p.status.IsFailure ∨ p.status = .partialResult) ∧
    sm.status = p.status ∧ sm.problem = some (p.error, p.source)
  unproblematic : firstProblem log = none → sm.status = .complete ∧ sm.problem = none

/-- What the end of a transaction needs of the log before it. -/
def SummaryEntry : LogEntry → List LogEntry → Prop
  | .prepare sm, t => sm.Faithful (txnLog t)
  | _, _ => True

structure SummaryInv (v : QueueState) : Prop where
  problem_eq : v.problem = firstProblem (txnLog v.log)
  problem_status : ∀ p, v.problem = some p → p.status.IsFailure ∨ p.status = .partialResult
  clean : v.problem = none → ∀ x ∈ txnLog v.log, x.isTrouble = false
  queued_accepted : ∀ e ∈ v.queued, e ∈ accepted (txnLog v.log)
  active_accepted : ∀ k e, v.active.get k = some e → e ∈ accepted (txnLog v.log)
  left_accepted : ∀ e ∈ left (txnLog v.log), e ∈ accepted (txnLog v.log)
  accepted_done : v.problem = none → ∀ e ∈ accepted (txnLog v.log),
    e ∈ v.queued ∨ (∃ k, v.active.get k = some e) ∨ EndedComplete (txnLog v.log) e
  entries : Entrywise SummaryEntry v.log

/-! ### The log of the running transaction -/

theorem txnLog_cons {x : LogEntry} (h : x.isPrepare = false) (log : List LogEntry) :
    txnLog (x :: log) = x :: txnLog log := by
  simp [txnLog, h]

theorem txnLog_append {xs : List LogEntry} (h : ∀ x ∈ xs, x.isPrepare = false)
    (log : List LogEntry) : txnLog (xs ++ log) = xs ++ txnLog log := by
  induction xs with
  | nil => rfl
  | cons x xs ih =>
    rw [List.cons_append, txnLog_cons (h x List.mem_cons_self),
      ih fun y hy => h y (List.mem_cons_of_mem _ hy)]
    rfl

theorem txnLog_subset (log : List LogEntry) : ∀ x ∈ txnLog log, x ∈ log := fun _ hx =>
  (List.takeWhile_sublist _).subset hx

theorem firstProblem_cons (x : LogEntry) (log : List LogEntry) :
    firstProblem (x :: log) = match x.problem? with
      | some q => some ((firstProblem log).getD q)
      | none => firstProblem log := by
  cases h : x.problem? with
  | none => simp [firstProblem, problems, List.filterMap_cons_none h]
  | some q =>
    simp only [firstProblem, problems, List.filterMap_cons_some h]
    rw [List.getLast?_cons]

theorem firstProblem_append {xs : List LogEntry} (h : ∀ x ∈ xs, x.problem? = none)
    (log : List LogEntry) : firstProblem (xs ++ log) = firstProblem log := by
  have h' : xs.filterMap LogEntry.problem? = [] := List.filterMap_eq_nil_iff.mpr h
  rw [firstProblem, problems, List.filterMap_append, h']
  rfl

/-! ### The invariant, operation by operation -/

/-- Entries about neither problems nor the course of an event. -/
def LogEntry.isNeutral : LogEntry → Bool
  | .accept _ | .leave _ _ _ _ | .cancel _ | .drop _ | .discard _ | .report _ | .prepare _ => false
  | _ => true

theorem neutral_log {xs : List LogEntry} (h : ∀ x ∈ xs, x.isNeutral = true)
    (log : List LogEntry) :
    accepted (xs ++ log) = accepted log ∧ left (xs ++ log) = left log ∧
      firstProblem (xs ++ log) = firstProblem log ∧ txnLog (xs ++ log) = xs ++ txnLog log ∧
      ∀ x ∈ xs, x.isTrouble = false := by
  have hp : ∀ x ∈ xs, x.problem? = none := fun x hx => by
    have := h x hx
    cases x <;> first | rfl | cases this
  have hf : ∀ x ∈ xs, x.isPrepare = false := fun x hx => by
    have := h x hx
    cases x <;> first | rfl | cases this
  have ht : ∀ x ∈ xs, x.isTrouble = false := fun x hx => by
    have := h x hx
    cases x <;> first | rfl | cases this
  have ha : xs.filterMap LogEntry.accept? = [] := List.filterMap_eq_nil_iff.mpr fun x hx => by
    have := h x hx
    cases x <;> first | rfl | cases this
  have hl : xs.filterMap LogEntry.leave? = [] := List.filterMap_eq_nil_iff.mpr fun x hx => by
    have := h x hx
    cases x <;> first | rfl | cases this
  refine ⟨?_, ?_, firstProblem_append hp log, txnLog_append hf log, ht⟩
  · rw [accepted, List.filterMap_append, ha]
    rfl
  · rw [left, List.filterMap_append, hl]
    rfl

theorem summaryEntry_of_not_prepare {x : LogEntry} (h : x.isPrepare = false) (t : List LogEntry) :
    SummaryEntry x t := by
  cases x with
  | prepare => cases h
  | _ => trivial

theorem SummaryInv.extend {v v' : QueueState} (hinv : SummaryInv v) (xs : List LogEntry)
    (hlog : v'.log = xs ++ v.log) (hx : ∀ x ∈ xs, x.isNeutral = true)
    (hq : ∀ e ∈ v'.queued, e ∈ v.queued) (hp : v'.problem = v.problem)
    (hact : ∀ k e, v'.active.get k = some e → e ∈ v.queued ∨ ∃ k, v.active.get k = some e)
    (hcover : ∀ e, e ∈ v.queued ∨ (∃ k, v.active.get k = some e) →
      e ∈ v'.queued ∨ ∃ k, v'.active.get k = some e) : SummaryInv v' := by
  obtain ⟨h1, h2, h3, h4, h5⟩ := neutral_log hx (txnLog v.log)
  obtain ⟨_, _, _, h4', _⟩ := neutral_log hx v.log
  have htx : txnLog v'.log = xs ++ txnLog v.log := by rw [hlog, h4']
  refine ⟨?_, ?_, ?_, ?_, ?_, ?_, ?_, ?_⟩
  · rw [htx, h3, hp]
    exact hinv.problem_eq
  · rw [hp]
    exact hinv.problem_status
  · rw [htx, hp]
    intro hn x hxm
    rcases List.mem_append.mp hxm with hxm | hxm
    · exact h5 x hxm
    · exact hinv.clean hn x hxm
  · rw [htx, h1]
    exact fun e he => hinv.queued_accepted e (hq e he)
  · rw [htx, h1]
    intro k e hk
    rcases hact k e hk with he | ⟨k', he⟩
    · exact hinv.queued_accepted e he
    · exact hinv.active_accepted k' e he
  · rw [htx, h1, h2]
    exact hinv.left_accepted
  · rw [htx, h1, hp]
    intro hn e he
    have hsplit : (e ∈ v.queued ∨ ∃ k, v.active.get k = some e) ∨ EndedComplete (txnLog v.log) e := by
      rcases hinv.accepted_done hn e he with h | h | h
      · exact .inl (.inl h)
      · exact .inl (.inr h)
      · exact .inr h
    rcases hsplit with h | ⟨err, src, h⟩
    · rcases hcover e h with h | h
      · exact .inl h
      · exact .inr (.inl h)
    · exact .inr (.inr ⟨err, src, List.mem_append_right _ h⟩)
  · rw [hlog]
    refine entrywise_append (fun x hxm t => summaryEntry_of_not_prepare ?_ t) hinv.entries
    have := hx x hxm
    cases x <;> first | rfl | cases this

/-- Once there is a problem, only the first problem matters. -/
theorem SummaryInv.problematic {v v' : QueueState} (hinv : SummaryInv v) (xs : List LogEntry)
    (hlog : v'.log = xs ++ v.log) (hx : ∀ x ∈ xs, x.isPrepare = false)
    (hp : v'.problem = firstProblem (xs ++ txnLog v.log)) (hne : v'.problem ≠ none)
    (hbad : ∀ p, v'.problem = some p → p.status.IsFailure ∨ p.status = .partialResult)
    (hq : ∀ e ∈ v'.queued, e ∈ v.queued)
    (hact : ∀ k e, v'.active.get k = some e → v.active.get k = some e)
    (hleft : ∀ e ∈ left xs, ∃ k, v.active.get k = some e) : SummaryInv v' := by
  have htx : txnLog v'.log = xs ++ txnLog v.log := by rw [hlog, txnLog_append hx]
  have hacc : ∀ e ∈ accepted (txnLog v.log), e ∈ accepted (txnLog v'.log) := fun e he => by
    rw [htx, accepted, List.filterMap_append]
    exact List.mem_append_right _ he
  refine ⟨?_, hbad, fun hn => absurd hn hne, fun e he => hacc e (hinv.queued_accepted e (hq e he)),
    fun k e hk => hacc e (hinv.active_accepted k e (hact k e hk)), ?_, fun hn => absurd hn hne, ?_⟩
  · rw [htx]
    exact hp
  · intro e he
    rw [htx, left, List.filterMap_append] at he
    rcases List.mem_append.mp he with he | he
    · obtain ⟨k, hk⟩ := hleft e he
      exact hacc e (hinv.active_accepted k e hk)
    · exact hacc e (hinv.left_accepted e he)
  · rw [hlog]
    exact entrywise_append (fun x hxm t => summaryEntry_of_not_prepare (hx x hxm) t) hinv.entries

theorem discards_problem (l : List EventId) :
    (∀ x ∈ discards l, x.problem? = none) ∧ (∀ x ∈ discards l, x.isPrepare = false) ∧
      left (discards l) = [] := by
  refine ⟨fun x hx => ?_, fun x hx => ?_, ?_⟩
  · obtain ⟨e, _, rfl⟩ := List.mem_map.mp (List.mem_reverse.mp hx)
    rfl
  · obtain ⟨e, _, rfl⟩ := List.mem_map.mp (List.mem_reverse.mp hx)
    rfl
  · have h := (discards_log l []).2.2.1
    rw [List.append_nil] at h
    exact h

/-- An abort after the entries `xs`, none of which is a problem other than the one reported. -/
theorem SummaryInv.abort {v w : QueueState} (hinv : SummaryInv v) (hproblem : v.problem = none)
    (xs : List LogEntry) (p : AsyncProblem) (hbad : p.status.IsFailure) (hlog : w.log = xs ++ v.log)
    (hx : ∀ x ∈ xs, x.isPrepare = false)
    (hfirst : firstProblem xs = none ∨ firstProblem xs = some p)
    (hact : ∀ k e, w.active.get k = some e → v.active.get k = some e)
    (hleft : ∀ e ∈ left xs, ∃ k, v.active.get k = some e) : SummaryInv (w.abort p) := by
  obtain ⟨h1, h2, h3⟩ := discards_problem w.queued
  have hnone : firstProblem (txnLog v.log) = none := by rw [← hinv.problem_eq, hproblem]
  have hnil : problems (txnLog v.log) = [] := List.getLast?_eq_none_iff.mp hnone
  have hlog' : (w.abort p).log = (discards w.queued ++ .report p :: xs) ++ v.log := by
    simp [QueueState.abort, QueueState.dropQueue, QueueState.record, QueueState.write, hlog]
  refine hinv.problematic (discards w.queued ++ .report p :: xs) hlog' ?_ ?_ (by
    simp [QueueState.abort, QueueState.dropQueue, QueueState.record, QueueState.write])
    (fun q hq => .inl ((Option.some.inj hq) ▸ hbad)) ?_ hact ?_
  · intro x hxm
    rcases List.mem_append.mp hxm with hxm | hxm
    · exact h2 x hxm
    · rcases List.mem_cons.mp hxm with rfl | hxm
      · rfl
      · exact hx x hxm
  · show some p = _
    rw [List.append_assoc, firstProblem_append h1, List.cons_append, firstProblem_cons]
    have hxs : firstProblem (xs ++ txnLog v.log) = firstProblem xs := by
      simp only [firstProblem, problems, List.filterMap_append] at hnil ⊢
      rw [hnil, List.append_nil]
    rw [hxs]
    rcases hfirst with h | h <;> rw [h] <;> rfl
  · intro e he
    cases he
  · intro e he
    rw [left, List.filterMap_append] at he
    rcases List.mem_append.mp he with he | he
    · rw [show List.filterMap LogEntry.leave? (discards w.queued) = [] from h3] at he
      cases he
    · exact hleft e he

/-- Entries behind an earlier problem do not change the first one. -/
theorem firstProblem_later {log : List LogEntry} {p : AsyncProblem}
    (h : firstProblem log = some p) (xs : List LogEntry) : firstProblem (xs ++ log) = some p := by
  induction xs with
  | nil => exact h
  | cons x xs ih =>
    rw [List.cons_append, firstProblem_cons, ih]
    cases x.problem? <;> rfl

theorem SummaryInv.later {v v' : QueueState} (hinv : SummaryInv v) (hproblem : v.problem ≠ none)
    (xs : List LogEntry) (hlog : v'.log = xs ++ v.log) (hx : ∀ x ∈ xs, x.isPrepare = false)
    (hp : v'.problem = v.problem) (hq : ∀ e ∈ v'.queued, e ∈ v.queued)
    (hact : ∀ k e, v'.active.get k = some e → v.active.get k = some e)
    (hleft : ∀ e ∈ left xs, ∃ k, v.active.get k = some e) : SummaryInv v' := by
  refine hinv.problematic xs hlog hx ?_ (by rw [hp]; exact hproblem)
    (by rw [hp]; exact hinv.problem_status) hq hact hleft
  obtain ⟨p, hsome⟩ := Option.ne_none_iff_exists'.mp hproblem
  have hfirst : firstProblem (txnLog v.log) = some p := by rw [← hinv.problem_eq, hsome]
  rw [hp, hsome, firstProblem_later hfirst]

theorem SummaryInv.append {v v' : QueueState} (hinv : SummaryInv v) {e : EventId}
    (hlog : v'.log = .append e :: .accept e :: v.log) (hq : v'.queued = v.queued ++ [e])
    (hact : v'.active = v.active) (hp : v'.problem = v.problem) : SummaryInv v' := by
  have htx : txnLog v'.log = .append e :: .accept e :: txnLog v.log := by
    rw [hlog, txnLog_cons rfl, txnLog_cons rfl]
  have hacc : accepted (txnLog v'.log) = e :: accepted (txnLog v.log) := by
    rw [htx]
    rfl
  refine ⟨?_, ?_, ?_, ?_, ?_, ?_, ?_, ?_⟩
  · rw [hp, htx]
    exact hinv.problem_eq
  · rw [hp]
    exact hinv.problem_status
  · rw [hp, htx]
    intro hn x hx
    rcases List.mem_cons.mp hx with rfl | hx
    · rfl
    · rcases List.mem_cons.mp hx with rfl | hx
      · rfl
      · exact hinv.clean hn x hx
  · rw [hq, hacc]
    intro x hx
    rcases List.mem_append.mp hx with hx | hx
    · exact List.mem_cons_of_mem _ (hinv.queued_accepted x hx)
    · rw [List.mem_singleton.mp hx]
      exact List.mem_cons_self
  · rw [hact, hacc]
    exact fun k x hk => List.mem_cons_of_mem _ (hinv.active_accepted k x hk)
  · rw [hacc, htx]
    exact fun x hx => List.mem_cons_of_mem _ (hinv.left_accepted x hx)
  · rw [hp, hacc, hq, hact, htx]
    intro hn x hx
    rcases List.mem_cons.mp hx with rfl | hx
    · exact .inl (List.mem_append_right _ (by simp))
    · rcases hinv.accepted_done hn x hx with h | h | ⟨err, src, h⟩
      · exact .inl (List.mem_append_left _ h)
      · exact .inr (.inl h)
      · exact .inr (.inr ⟨err, src, List.mem_cons_of_mem _ (List.mem_cons_of_mem _ h)⟩)
  · rw [hlog]
    exact ⟨trivial, trivial, hinv.entries⟩

theorem SummaryInv.finishComplete {v : QueueState} (hinv : SummaryInv v) {e : EventId}
    (he : v.active.get (v.classOf e) = some e) (err : Errno) (src : CodeSource) :
    SummaryInv (v.vacate e .complete err src) := by
  have htx : txnLog (.leave e .complete err src :: v.log)
      = .leave e .complete err src :: txnLog v.log := txnLog_cons rfl _
  refine ⟨?_, hinv.problem_status, ?_, ?_, ?_, ?_, ?_, trivial, hinv.entries⟩ <;>
    rw [show txnLog (v.vacate e .complete err src).log = _ from htx]
  · exact hinv.problem_eq
  · intro hn x hx
    rcases List.mem_cons.mp hx with rfl | hx
    · rfl
    · exact hinv.clean hn x hx
  · exact hinv.queued_accepted
  · exact fun k x hk => hinv.active_accepted k x (get_of_get_set_none hk)
  · intro x hx
    rcases List.mem_cons.mp (show x ∈ e :: left (txnLog v.log) from hx) with rfl | hx
    · exact hinv.active_accepted _ x he
    · exact hinv.left_accepted x hx
  · intro hn x hx
    by_cases hxe : x = e
    · exact .inr (.inr ⟨err, src, by rw [hxe]; exact List.mem_cons_self⟩)
    · rcases hinv.accepted_done hn x hx with h | ⟨k, h⟩ | ⟨err', src', h⟩
      · exact .inl h
      · right; left
        refine ⟨k, ?_⟩
        show (v.active.set (v.classOf e) none).get k = some x
        have hne : k ≠ v.classOf e := by
          rintro rfl
          rw [he] at h
          exact hxe (Option.some.inj h).symm
        rw [Slots.get_set_of_ne _ hne]
        exact h
      · exact .inr (.inr ⟨err', src', List.mem_cons_of_mem _ h⟩)

/-- **What the summary says (proved).**  At the end of a transaction everything is done, so the state's
problem tells the whole story. -/
theorem SummaryInv.summaryEntry {v : QueueState} (hinv : SummaryInv v) (hord : OrderInv v)
    (hq : v.queued = []) (hin : v.Inactive) {sm : AsyncSummary}
    (hstatus : sm.status = match v.problem with
      | none => .complete
      | some p => p.status)
    (hrep : sm.problem = v.problem.map fun p => (p.error, p.source)) :
    SummaryEntry (.prepare sm) v.log := by
  have hall : v.problem = none → ∀ e ∈ accepted (txnLog v.log), EndedComplete (txnLog v.log) e := by
    intro hn e he
    rcases hinv.accepted_done hn e he with h | ⟨k, h⟩ | h
    · rw [hq] at h
      cases h
    · rw [hin k] at h
      cases h
    · exact h
  have hiff : sm.status = .complete ↔ v.problem = none := by
    rw [hstatus]
    cases hp : v.problem with
    | none => simp
    | some p =>
      have hne : p.status ≠ .complete := by
        rcases hinv.problem_status p hp with (h | h | h) | h <;> rw [h] <;> simp
      simp [hne]
  refine ⟨?_, ?_, ?_, ?_⟩
  · rw [hiff]
    constructor
    · intro hn
      refine ⟨hall hn, fun p hp => ?_⟩
      have := hinv.clean hn _ hp
      cases this
    · rintro ⟨hdone, hnorep⟩
      by_contra hne
      obtain ⟨p, hp⟩ := Option.ne_none_iff_exists'.mp hne
      have hfirst : firstProblem (txnLog v.log) = some p := by rw [← hinv.problem_eq, hp]
      obtain ⟨x, hx, hxp⟩ := List.mem_filterMap.mp (List.mem_of_getLast? hfirst)
      -- the first problem is the bad end of an event, which cannot also have ended well
      cases x with
      | report q => exact hnorep q hx
      | leave e st err src =>
        have hacc : e ∈ accepted (txnLog v.log) :=
          hinv.left_accepted e (List.mem_filterMap.mpr ⟨_, hx, rfl⟩)
        obtain ⟨err', src', hx'⟩ := hdone e hacc
        have heq : LogEntry.leave e st err src = .leave e .complete err' src' :=
          filterMap_injOn hord.left_nodup (txnLog_subset _ _ hx) (txnLog_subset _ _ hx')
            (show LogEntry.leave? _ = some e from rfl) rfl
        cases heq
        simp [LogEntry.problem?] at hxp
      | _ => cases hxp
  · intro hc
    exact hinv.clean (hiff.mp hc)
  · intro p hp
    rw [← hinv.problem_eq] at hp
    rw [hp] at hstatus hrep
    exact ⟨hinv.problem_status p hp, hstatus, hrep⟩
  · intro hn
    rw [← hinv.problem_eq] at hn
    rw [hn] at hstatus hrep
    exact ⟨hstatus, hrep⟩

/-- **Every step keeps the summary invariant (proved).** -/
theorem summaryInv_step {v v' : QueueState} {ℓ : QueueLabel} (hinv : SummaryInv v)
    (hord : OrderInv v) (hst : StateInv v) (h : QueueStep v ℓ v') : SummaryInv v' := by
  have hsame : ∀ e, e ∈ v.queued ∨ (∃ k, v.active.get k = some e) →
      e ∈ v.queued ∨ ∃ k, v.active.get k = some e := fun _ h => h
  have hactsame : ∀ k e, v.active.get k = some e → e ∈ v.queued ∨ ∃ k, v.active.get k = some e :=
    fun k e hk => .inr ⟨k, hk⟩
  have hvacate : ∀ {e k x}, (v.active.set (v.classOf e) none).get k = some x →
      v.active.get k = some x := fun hk => get_of_get_set_none hk
  cases h with
  | alloc | enter | exitEmpty =>
    exact hinv.extend [_] rfl (by simp [LogEntry.isNeutral]) (fun _ h => h) rfl hactsame hsame
  | @quiet x hq =>
    have hn : x.isNeutral = true := by
      revert hq
      cases x <;> simp [LogEntry.isQuiet, LogEntry.isNeutral]
    exact hinv.extend [x] rfl (by simp [hn]) (fun _ h => h) rfl hactsame hsame
  | enterClient | exit =>
    exact hinv.extend [] rfl (by simp) (fun _ h => h) rfl hactsame hsame
  | append => exact hinv.append rfl rfl rfl rfl
  | drop _ problem =>
    exact hinv.later problem [_, _] rfl (by simp [LogEntry.isPrepare]) rfl (fun _ h => h)
      (fun _ _ h => h) (by simp [left, LogEntry.leave?])
  | @dropShutdown e src _ problem =>
    have hnone : firstProblem (txnLog v.log) = none := by rw [← hinv.problem_eq, problem]
    refine hinv.problematic [.drop e, .report ⟨.killed, Errno.eshutdown, src⟩, .accept e] rfl
      (by simp [LogEntry.isPrepare]) ?_ (by simp [QueueState.record, QueueState.write]) ?_
      (fun _ h => h) (fun _ _ h => h) (by simp [left, LogEntry.leave?])
    · simp only [List.cons_append, List.nil_append, firstProblem_cons, LogEntry.problem?, hnone]
      rfl
    · intro q hq
      cases hq
      exact .inl (.inr (.inr rfl))
  | abort problem failure =>
    exact hinv.abort problem [] _ failure rfl (by simp) (.inl rfl) (fun _ _ h => h)
      (by simp [left])
  | again problem =>
    exact hinv.later problem [_] rfl (by simp [LogEntry.isPrepare]) rfl (fun _ h => h)
      (fun _ _ h => h) (by simp [left, LogEntry.leave?])
  | @start a b e queued startable =>
    refine hinv.extend [_] rfl (by simp [LogEntry.isNeutral]) (fun x hx => ?_) rfl
      (fun k x hk => ?_) fun x hx => ?_
    · rw [queued]
      rcases List.mem_append.mp (show x ∈ a ++ b from hx) with h | h
      · exact List.mem_append_left _ h
      · exact List.mem_append_right _ (List.mem_cons_of_mem _ h)
    · have hk' : (v.active.set (v.classOf e) (some e)).get k = some x := hk
      rw [Slots.get_set] at hk'
      split at hk'
      · cases hk'
        exact .inl (by simp [queued])
      · exact .inr ⟨k, hk'⟩
    · show x ∈ a ++ b ∨ ∃ k, (v.active.set (v.classOf e) (some e)).get k = some x
      rcases hx with hx | ⟨k, hk⟩
      · rw [queued] at hx
        rcases List.mem_append.mp hx with h | h
        · exact .inl (List.mem_append_left _ h)
        · rcases List.mem_cons.mp h with rfl | h
          · exact .inr ⟨v.classOf x, Slots.get_set_self _ _ _⟩
          · exact .inl (List.mem_append_right _ h)
      · right
        refine ⟨k, ?_⟩
        have hne : k ≠ v.classOf e := by
          rintro rfl
          rw [startable.slot_free] at hk
          cases hk
        rw [Slots.get_set_of_ne _ hne]
        exact hk
  | @finishCancelled e st err src fin problem =>
    exact hinv.later problem [_, _] rfl (by simp [LogEntry.isPrepare]) rfl (fun _ h => h)
      (fun _ _ hk => hvacate hk) fun x hx => by
        simp [left, LogEntry.leave?] at hx
        exact ⟨_, hx ▸ fin.slot⟩
  | @finishFailed e st err src fin problem failure =>
    refine hinv.abort problem [.leave e st err src] _ failure rfl (by simp [LogEntry.isPrepare])
      (.inr ?_) (fun _ _ hk => hvacate hk) fun x hx => ?_
    · rw [firstProblem_cons]
      have hp : (LogEntry.leave e st err src).problem? = some ⟨st, err, src⟩ := by
        rcases failure with rfl | rfl | rfl <;> rfl
      rw [hp]
      rfl
    · simp [left, LogEntry.leave?] at hx
      exact ⟨_, hx ▸ fin.slot⟩
  | @finishPartial e err src fin problem =>
    have hnone : firstProblem (txnLog v.log) = none := by rw [← hinv.problem_eq, problem]
    refine hinv.problematic [.report ⟨.partialResult, err, src⟩, .leave e .partialResult err src]
      rfl (by simp [LogEntry.isPrepare]) ?_ (by simp [QueueState.record, QueueState.write]) ?_
      (fun _ h => h) (fun _ _ hk => hvacate hk) fun x hx => ?_
    · simp only [List.cons_append, List.nil_append, firstProblem_cons, hnone]
      rfl
    · intro q hq
      cases hq
      exact .inr rfl
    · simp [left, LogEntry.leave?] at hx
      exact ⟨_, hx ▸ fin.slot⟩
  | @finishShutdown e err src fin problem =>
    refine hinv.abort problem [.cancel e, .leave e .complete err src] _ (.inr (.inr rfl)) rfl
      (by simp [LogEntry.isPrepare]) (.inl rfl) (fun _ _ hk => hvacate hk) fun x hx => ?_
    simp [left, LogEntry.leave?] at hx
    exact ⟨_, hx ▸ fin.slot⟩
  | finishComplete fin problem => exact hinv.finishComplete fin.slot _ _
  | exitDone | submit =>
    exact hinv.extend [_, _] rfl (by simp [LogEntry.isNeutral]) (fun _ h => h) rfl hactsame hsame
  | submitAgain _ problem =>
    exact hinv.later problem [_, _, _] rfl (by simp [LogEntry.isPrepare]) rfl (fun _ h => h)
      (fun _ _ h => h) (by simp [left, LogEntry.leave?])
  | @submitEmpty p state problem failure =>
    have hnone : firstProblem (txnLog v.log) = none := by rw [← hinv.problem_eq, problem]
    refine hinv.problematic [.enter, .submit, .report p] rfl (by simp [LogEntry.isPrepare]) ?_
      (by simp [QueueState.record, QueueState.write]) ?_ (fun _ h => h) (fun _ _ h => h)
      (by simp [left, LogEntry.leave?])
    · simp only [List.cons_append, List.nil_append, firstProblem_cons, LogEntry.problem?, hnone]
      rfl
    · intro q hq
      cases hq
      exact .inl failure
  | @prepare sm state status reported =>
    obtain ⟨hq, hin, _⟩ := hst.complete state
    have hentry := hinv.summaryEntry hord hq hin status reported
    refine ⟨rfl, fun _ hp => (by cases hp), fun _ x hx => (by cases hx), fun x hx => (by cases hx),
      fun k x hk => ?_, fun x hx => (by cases hx), fun _ x hx => (by cases hx), hentry,
      hinv.entries⟩
    exact absurd ((hin k).symm.trans hk) (by simp)

end Connio
