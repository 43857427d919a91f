import Connio.Ownership

/-!
# What holds of every transaction

What the facts of `Scheduling` and `Summary` mean for one conn with its threads.

* `Scheduled`, `reachable_scheduled` — **PROVED**: each class is started in the order of its appends, and
  a connect event is a barrier;
* `AsyncSummary.Reported`, `callback_reported` — **PROVED**: the summary that the consumer is handed tells
  the first problem of its transaction, and the callback is chosen by it;
* `status_complete_fails` — **PROVED**: a transaction whose events have all completed can still be
  reported as killed.
-/

namespace Connio

open Connio.Lib

/-! ### The order in which events are started -/

/-- **The scheduling discipline.**  `txnLog t` is the part of the history `t` that belongs to the running
transaction. -/
structure Scheduled (c : Conn) : Prop where
  /-- only queued events are started -/
  queued : ∀ e t, (.start e :: t).IsSuffix c.log → e ∈ appended t
  /-- each class is started in the order of its appends -/
  class_order : ∀ x ∈ started c.log, ∀ y ∈ started c.log, c.classOf x = c.classOf y →
    AppendedBefore c.log x y → [y, x].Sublist (started c.log)
  /-- before a connect event is started, what was appended before it has left -/
  before_connect : ∀ e t, (.start e :: t).IsSuffix c.log → c.classOf e = .connect →
    (∀ y ∈ appended (txnLog t), AppendedBefore t y e → y ∈ left t) ∧
      (∀ y, AppendedBefore t y e → y ∈ left t ∨ y ∈ discarded (oldLog t)) ∧
      ∀ z ∈ started t, z ∈ left t
  /-- what was appended after a connect event is started after that has left -/
  after_connect : ∀ e t, (.start e :: t).IsSuffix c.log → ∀ y, c.classOf y = .connect →
    AppendedBefore t y e → (y ∈ appended (txnLog t) → y ∈ left t) ∧
      (y ∈ left t ∨ y ∈ discarded (oldLog t))
  /-- the active events are those that have been started and have not left -/
  active : ∀ k e, c.activeEvent.get k = some e ↔ Unfinished c.log e ∧ c.classOf e = k
  unique : ∀ x y, Unfinished c.log x → Unfinished c.log y → c.classOf x = c.classOf y → x = y
  connect_alone : ∀ x y, Unfinished c.log x → Unfinished c.log y → c.classOf x = .connect → x = y

theorem txnLog_append_oldLog (log : List LogEntry) : txnLog log ++ oldLog log = log :=
  List.takeWhile_append_dropWhile

/-- What has been discarded in an earlier transaction does not belong to the running one. -/
theorem left_of_txnLog {cls : EventId → ConnEventClass} {t : List LogEntry}
    (hent : Entrywise (ScheduleEntry cls) t) (hnd : (appended t).Nodup) {y : EventId}
    (hy : y ∈ appended (txnLog t)) (h : y ∈ left t ∨ y ∈ discarded (oldLog t)) : y ∈ left t := by
  refine h.resolve_right fun hd => ?_
  have hold : Entrywise (ScheduleEntry cls) (oldLog t) :=
    entrywise_iff.mpr fun x t' hs => entrywise_iff.mp hent x t' (hs.trans (List.dropWhile_suffix _))
  have hmem := discarded_appended hold y hd
  rw [← txnLog_append_oldLog t, appended, List.filterMap_append] at hnd
  exact (List.nodup_append.mp hnd).2.2 y hy y hmem rfl

/-- **The events of a class are started in the order of their appends (proved).** -/
theorem started_order {cls : EventId → ConnEventClass} {log : List LogEntry}
    (hent : Entrywise (ScheduleEntry cls) log) (hnd : (appended log).Nodup) {x y : EventId}
    (hx : x ∈ started log) (hy : y ∈ started log) (hcls : cls x = cls y)
    (h : AppendedBefore log x y) : [y, x].Sublist (started log) := by
  have key : ∀ t : List LogEntry, t.IsSuffix log → x ∈ started t → y ∈ started t →
      [y, x].Sublist (started t) := by
    intro t
    induction t with
    | nil =>
      intro _ hx
      cases hx
    | cons entry t ih =>
      intro hs hx hy
      have hst := (List.suffix_cons entry t).trans hs
      cases entry with
      | start e =>
        obtain ⟨_, hbefore, _⟩ := entrywise_iff.mp hent _ _ hs
        have hx' : x ∈ e :: started t := hx
        have hy' : y ∈ e :: started t := hy
        show [y, x].Sublist (e :: started t)
        rcases List.mem_cons.mp hx' with rfl | hxt <;> rcases List.mem_cons.mp hy' with rfl | hyt
        · exact absurd h (pair_asymm hnd h)
        · -- `y` was started before `x`, so it was appended before `x`
          have hyx : AppendedBefore log y x :=
            (hbefore y hyt hcls.symm).trans (hst.sublist.filterMap _)
          exact absurd hyx (pair_asymm hnd h)
        · exact (List.singleton_sublist.mpr hxt).cons_cons _
        · exact (ih hst hxt hyt).cons _
      | _ => exact ih hst hx hy
  exact key log List.suffix_rfl hx hy

theorem AsyncInv.scheduled {s : AsyncSystem} (hinv : AsyncInv s) : Scheduled s.conn := by
  have hord := hinv.queue.order
  have hentry := entrywise_iff.mp hord.entries
  have hnd : (appended s.conn.log).Nodup := hord.appended_nodup
  have hsuffix : ∀ {e : EventId} {t : List LogEntry}, (.start e :: t).IsSuffix s.conn.log →
      t.IsSuffix s.conn.log := fun hs => (List.suffix_cons _ _).trans hs
  have hleft : ∀ {e : EventId} {t : List LogEntry}, (.start e :: t).IsSuffix s.conn.log → ∀ y,
      y ∈ appended (txnLog t) → y ∈ left t ∨ y ∈ discarded (oldLog t) → y ∈ left t := by
    intro e t hs y
    have hent : Entrywise (ScheduleEntry s.conn.classOf) t :=
      entrywise_iff.mpr fun x t' hs' => hentry x t' (hs'.trans (hsuffix hs))
    exact left_of_txnLog hent (hnd.sublist ((hsuffix hs).sublist.filterMap _))
  refine ⟨fun e t hs => (hentry _ t hs).1, fun x hx y hy hc hb => ?_, fun e t hs hc => ?_,
    fun e t hs y hc hb => ?_, fun k e => ⟨fun hk => ?_, ?_⟩, fun x y hx hy hc => ?_,
    fun x y hx hy hc => ?_⟩
  · exact started_order hord.entries hnd hx hy hc hb
  · obtain ⟨_, _, hbarrier, hbusy⟩ := hentry _ t hs
    refine ⟨fun y hy hb => hleft hs y hy (hbarrier y hb (.inr hc)),
      fun y hb => hbarrier y hb (.inr hc), fun z hz => ?_⟩
    by_contra hl
    exact (hbusy z hz hl).2.2 hc
  · obtain ⟨_, _, hbarrier, _⟩ := hentry _ t hs
    have h1 := hbarrier y hb (.inl hc)
    exact ⟨fun hy => hleft hs y hy h1, h1⟩
  · exact ⟨hord.active_started k e hk, hinv.queue.slot.slot_class k e hk⟩
  · rintro ⟨⟨hs, hl⟩, rfl⟩
    exact (hord.started_cases e hs).resolve_left hl
  · exact unfinished_unique hord.entries x y hx hy (.inl hc)
  · exact unfinished_unique hord.entries x y hx hy (.inr hc)

/-- **The scheduling discipline along every run (proved).** -/
theorem reachable_scheduled {s s' : AsyncSystem} (hinit : s.Initial)
    (h : Reachable (enabled asyncStep) s s') : Scheduled s'.conn :=
  (asyncInv_reachable hinit h).scheduled

/-- A write `0`, and a disconnect `1` that waits for it. -/
def barrierRun : List AsyncAction :=
  queueRun 0 { type := .writeFromClientBuffer, source := ⟨0, 1⟩, bufferStart := true } ++
  queueRun 1 { type := .disconnect, source := ⟨0, 2⟩ } ++
  processRun 0 [(.destroying [], .destroy), (.starting, .test), (.processing, .process .send),
    (.processing, .process (.ret 0 .none))] .complete

/-- The disconnect is started when the write has left. -/
theorem reachable_scheduled_barrier : ∃ s : AsyncSystem, Scheduled s.conn ∧
    started s.conn.log = [1, 0] ∧ left s.conn.log = [0] := by
  have hrun : (runFrom asyncStep (AsyncSystem.new (some 3)) barrierRun).map (fun s =>
      (started s.conn.log, left s.conn.log)) = some ([1, 0], [0]) := by
    decide +kernel
  obtain ⟨s, hs, hobs⟩ := Option.map_eq_some_iff.mp hrun
  simp only [Prod.mk.injEq] at hobs
  exact ⟨s, reachable_scheduled (AsyncSystem.new_initial (some 3)) (reachable_of_runFrom hs), hobs⟩

/-! ### What the consumer is told -/

/-- **What the consumer is told of a transaction.**  `log` is the history of the transaction, `success` says
that the success callback is called, `failureGiven` that there is another one. -/
structure AsyncSummary.Reported (sm : AsyncSummary) (log : List LogEntry)
    (success failureGiven : Bool) : Prop where
  /-- COMPLETE means that every accepted event has ended well, and nothing else was reported -/
  complete : sm.status = .complete ↔
    (∀ e ∈ accepted log, EndedComplete log e) ∧ ∀ p, .report p ∉ log
  /-- then no event has failed, and none was cancelled, dropped or discarded -/
  untroubled : sm.status = .complete → ∀ x ∈ log, x.isTrouble = false
  /-- otherwise the first problem is told, unless it is a partial result -/
  first : ∀ p, firstProblem log = some p → p.status ≠ .partialResult →
    p.status.IsFailure ∧ sm.status = p.status ∧ sm.problem = some (p.error, p.source)
  /-- partial results alone count as success -/
  partialOnly : ∀ p, firstProblem log = some p → (∀ q ∈ problems log, q.status = .partialResult) →
    sm.status = .partialResult ∧ sm.problem = some (p.error, p.source) ∧ success = true
  chosen : (∀ p, firstProblem log = some p → p.status ≠ .partialResult) → failureGiven = true →
    (success = true ↔ ∀ x ∈ log, x.isTrouble = false)

/-- A transaction without a partial result in front has no trouble exactly when its summary is not that of
a failure. -/
theorem AsyncSummary.Faithful.trouble {sm : AsyncSummary} {log : List LogEntry} (h : sm.Faithful log)
    (hp : ∀ p, firstProblem log = some p → p.status ≠ .partialResult) :
    (sm.status = .complete ∨ sm.status = .partialResult) ↔ ∀ x ∈ log, x.isTrouble = false := by
  constructor
  · rintro (hc | hc)
    · exact h.untroubled hc
    · -- a partial result would be the first problem
      cases hfirst : firstProblem log with
      | none =>
        rw [(h.unproblematic hfirst).1] at hc
        cases hc
      | some p =>
        obtain ⟨_, hs, _⟩ := h.first p hfirst
        exact absurd (hs.symm.trans hc) (hp p hfirst)
  · intro hx
    cases hfirst : firstProblem log with
    | none => exact .inl (h.unproblematic hfirst).1
    | some p =>
      obtain ⟨x, hmem, hxp⟩ := List.mem_filterMap.mp (List.mem_of_getLast? hfirst)
      have htrouble := hx x hmem
      cases x <;> simp_all [LogEntry.isTrouble, LogEntry.problem?]

/-- `CallbackAsyncConsumer` chooses the callback by the status. -/
theorem AsyncSummary.Faithful.reported {sm : AsyncSummary} {log : List LogEntry} (h : sm.Faithful log)
    (failureGiven : Bool) :
    sm.Reported log (decide (sm.status = .complete) || decide (sm.status = .partialResult) ||
      !failureGiven) failureGiven := by
  refine ⟨h.complete, h.untroubled, fun p hp hne => ?_, fun p hp hall => ?_, fun hp hq => ?_⟩
  · obtain ⟨hstatus, hs, hrep⟩ := h.first p hp
    exact ⟨hstatus.resolve_right hne, hs, hrep⟩
  · obtain ⟨_, hs, hrep⟩ := h.first p hp
    have hpart := hs.trans (hall p (List.mem_of_getLast? hp))
    exact ⟨hpart, hrep, by simp [hpart]⟩
  · rw [hq, ← h.trouble hp]
    simp

/-- **The summary that the consumer is handed (proved).**  `t` is the history at the end of the
transaction, `txnLog t` the transaction's part of it. -/
theorem callback_reported {s s' s'' : AsyncSystem} {sm : AsyncSummary} {mark : List LogEntry}
    (hinit : s.Initial) (h : Reachable (enabled asyncStep) s s')
    (hcall : asyncStep s' (.call (.calling sm mark)) = some s'') :
    ∃ t success, mark = .prepare sm :: t ∧ mark.IsSuffix s'.conn.log ∧
      s''.conn.log = .callback success s'.conn.qFailure sm :: s'.conn.log ∧
      sm.Reported (txnLog t) success s'.conn.qFailure := by
  have hinv := asyncInv_reachable hinit h
  simp only [asyncStep] at hcall
  split at hcall <;> cases hcall
  next hmem =>
  obtain ⟨t, hmark, hsuffix, _⟩ := (reachable_ownershipInv hinit h).completion _ hmem
  have hfaithful : sm.Faithful (txnLog t) :=
    entrywise_iff.mp hinv.queue.summary.entries (.prepare sm) t (hmark ▸ hsuffix)
  exact ⟨t, _, hmark, hsuffix, rfl, hfaithful.reported s'.conn.qFailure⟩

/-- A write `0` is queued and completed; then the conn is killed, and the queue submitted. -/
def killedRun : List AsyncAction :=
  queueRun 0 { type := .writeFromClientBuffer, source := ⟨0, 1⟩, bufferStart := true } ++
  processRun 0 [(.destroying [], .destroy), (.starting, .test), (.processing, .process .send),
    (.processing, .process (.ret 0 .none))] .complete ++
  [.kill ⟨0, 2⟩, .submit true 7 ⟨0, 3⟩, .prepare]

/-- The thread about to destroy the free list does so. -/
def AsyncSystem.destroyFirst (s : AsyncSystem) : Option AsyncSystem :=
  s.completions.head?.bind fun x => asyncStep s (.destroy x)

/-- The summary of the thread about to call the consumer, with the events of its transaction. -/
def AsyncSystem.aboutToCall (s : AsyncSystem) : Option (AsyncSummary × List LogEntry × List EventId) :=
  match s.completions with
  | [.calling sm (.prepare _ :: t)] => some (sm, txnLog t, accepted (txnLog t))
  | _ => none

/-- The summary of the killed transaction. -/
def killedSummary : AsyncSummary where
  status := .killed
  sent := 0
  received := 0
  client := 7
  problem := some (Errno.ecanceled, ⟨0, 2⟩)

theorem killedRun_summary : (((runFrom asyncStep (AsyncSystem.new (some 3)) killedRun).bind
    AsyncSystem.destroyFirst).bind AsyncSystem.aboutToCall).map (fun r =>
      (r.1, r.2.2, decide (.leave 0 .complete 0 ⟨0, 1⟩ ∈ r.2.1))) =
        some (killedSummary, [0], true) := by
  decide +kernel

/-- The thread that is about to report the killed transaction, in which the write has completed. -/
theorem killedRun_reachable : ∃ s sm t, Reachable (enabled asyncStep) (AsyncSystem.new (some 3)) s ∧
    .calling killedSummary (.prepare sm :: t) ∈ s.completions ∧ accepted (txnLog t) = [0] ∧
    EndedComplete (txnLog t) 0 := by
  obtain ⟨r, hr, hobs⟩ := Option.map_eq_some_iff.mp killedRun_summary
  obtain ⟨s', hs', hcall⟩ := Option.bind_eq_some_iff.mp hr
  obtain ⟨s, hs, hdestroy⟩ := Option.bind_eq_some_iff.mp hs'
  obtain ⟨x, _, hstep⟩ := Option.bind_eq_some_iff.mp hdestroy
  have hreach : Reachable (enabled asyncStep) (AsyncSystem.new (some 3)) s' :=
    (reachable_of_runFrom hs).next (a := .destroy x) trivial hstep
  unfold AsyncSystem.aboutToCall at hcall
  split at hcall
  next sm sm' t heq =>
    cases hcall
    simp only [Prod.mk.injEq, decide_eq_true_eq] at hobs
    obtain ⟨rfl, hacc, hleave⟩ := hobs
    refine ⟨s', sm', t, hreach, ?_, hacc, 0, ⟨0, 1⟩, hleave⟩
    rw [heq]
    exact List.mem_singleton.mpr rfl
  · cases hcall

/-- The consumer is told of the kill. -/
theorem callback_reported_killed : ∃ s t success, killedSummary.Reported (txnLog t) success s ∧
    accepted (txnLog t) = [0] := by
  obtain ⟨s, sm, t, hreach, hmem, hacc, _⟩ := killedRun_reachable
  have hcall : asyncStep s (.call (.calling killedSummary (.prepare sm :: t))) = some { s with
      conn := callbackAsyncConsumer s.conn killedSummary
      completions := s.completions.erase (.calling killedSummary (.prepare sm :: t)) } := if_pos hmem
  obtain ⟨t', success, hmark, _, _, hrep⟩ :=
    callback_reported (AsyncSystem.new_initial (some 3)) hreach hcall
  cases hmark
  exact ⟨s.conn.qFailure, t, success, hrep, hacc⟩

/-- **A transaction whose events have all completed can be reported as killed (proved).** -/
theorem status_complete_fails : ¬ ∀ s s' s'' sm mark t, s.Initial →
    Reachable (enabled asyncStep) s s' → asyncStep s' (.call (.calling sm mark)) = some s'' →
    mark = .prepare sm :: t →
    (sm.status = .complete ↔ ∀ e ∈ accepted (txnLog t), EndedComplete (txnLog t) e) := by
  intro hall
  obtain ⟨s, sm, t, hreach, hmem, hacc, hcomplete⟩ := killedRun_reachable
  have hinit := AsyncSystem.new_initial (some 3)
  obtain ⟨t', hmark, _⟩ := (reachable_ownershipInv hinit hreach).completion _ hmem
  have hiff := hall _ s _ killedSummary _ t hinit hreach (if_pos hmem) (by cases hmark; rfl)
  have hbad : killedSummary.status = .complete := by
    rw [hiff, hacc]
    intro e he
    rw [List.mem_singleton.mp he]
    exact hcomplete
  cases hbad

end Connio
