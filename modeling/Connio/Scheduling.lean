import Connio.QueueModel

/-!
# The order in which events are started

Facts about the abstract queue.  An event overtakes only events of the other direction, so the queue keeps
the order of its appends up to that, and a connect event is a barrier.

* `ScheduleEntry` — what a start needs of the log before it: its class is started in the order of the
  appends, a connect event on either side has left, and no event of its class is unfinished; what is
  discarded has been queued;
* `OrderInv` — the queue is a part of the appended events in their order; what has been started past a
  queued event is of the other direction;
* `orderInv_step` — **PROVED**: every step keeps it;
* `unfinished_unique` — **PROVED**: each class has at most one started, unfinished event, and a connect
  event is alone.
-/

namespace Connio

open Connio.Lib

/-- What a start, or a discard, needs of the log before it. -/
def ScheduleEntry (cls : EventId → ConnEventClass) : LogEntry → List LogEntry → Prop
  | .start e, t =>
    e ∈ appended t ∧
    (∀ z ∈ started t, cls z = cls e → AppendedBefore t z e) ∧
    (∀ y, AppendedBefore t y e → cls y = .connect ∨ cls e = .connect →
      y ∈ left t ∨ y ∈ discarded (oldLog t)) ∧
    (∀ z ∈ started t, z ∉ left t → cls z ≠ cls e ∧ cls z ≠ .connect ∧ cls e ≠ .connect)
  | .discard e, t => e ∈ appended t
  | _, _ => True

structure OrderInv (v : QueueState) : Prop where
  appended_nodup : (appended v.log).Nodup
  appended_accepted : ∀ e ∈ appended v.log, e ∈ accepted v.log
  accepted_allocated : ∀ e ∈ accepted v.log, e ∈ allocated v.log
  queued_sublist : v.queued.reverse.Sublist (appended v.log)
  started_appended : ∀ e ∈ started v.log, e ∈ appended v.log
  left_started : ∀ e ∈ left v.log, e ∈ started v.log
  left_nodup : (left v.log).Nodup
  queued_fresh : ∀ e ∈ v.queued, e ∉ started v.log
  started_cases : ∀ e ∈ started v.log, e ∈ left v.log ∨ v.active.get (v.classOf e) = some e
  active_started : ∀ k e, v.active.get k = some e → e ∈ started v.log ∧ e ∉ left v.log
  appended_cases : ∀ e ∈ appended v.log, e ∈ v.queued ∨ e ∈ started v.log ∨ e ∈ discarded v.log
  discarded_old : ∀ e ∈ discarded v.log, v.problem ≠ none ∨ e ∈ discarded (oldLog v.log)
  /-- what has been started past a queued event is of the other direction -/
  barrier : ∀ x ∈ started v.log, ∀ y ∈ v.queued, AppendedBefore v.log y x →
    v.classOf y ≠ .connect ∧ v.classOf x ≠ .connect ∧ v.classOf x ≠ v.classOf y
  entries : Entrywise (ScheduleEntry v.classOf) v.log

/-- Entries that say nothing about the order of events. -/
def LogEntry.isOrderless : LogEntry → Bool
  | .append _ | .start _ | .leave _ _ _ _ | .discard _ | .prepare _ => false
  | _ => true

/-- What orderless entries leave alone. -/
theorem orderless_log {xs : List LogEntry} (h : ∀ x ∈ xs, x.isOrderless = true)
    (log : List LogEntry) :
    appended (xs ++ log) = appended log ∧ started (xs ++ log) = started log ∧
      left (xs ++ log) = left log ∧ discarded (xs ++ log) = discarded log ∧
      oldLog (xs ++ log) = oldLog log := by
  induction xs with
  | nil => exact ⟨rfl, rfl, rfl, rfl, rfl⟩
  | cons x xs ih =>
    have hx := h x List.mem_cons_self
    obtain ⟨h1, h2, h3, h4, h5⟩ := ih fun y hy => h y (List.mem_cons_of_mem _ hy)
    rw [← h1, ← h2, ← h3, ← h4, ← h5]
    cases x with
    | append | start | leave | discard | prepare => cases hx
    | _ => exact ⟨rfl, rfl, rfl, rfl, rfl⟩

theorem scheduleEntry_orderless {cls : EventId → ConnEventClass} {x : LogEntry}
    (h : x.isOrderless = true) (t : List LogEntry) : ScheduleEntry cls x t := by
  cases x with
  | start | discard => cases h
  | _ => trivial

theorem mem_of_suffix {f : LogEntry → Option EventId} {t log : List LogEntry}
    (h : t.IsSuffix log) {e : EventId} (he : e ∈ t.filterMap f) : e ∈ log.filterMap f :=
  (h.sublist.filterMap f).subset he

theorem appendedBefore_mem {log : List LogEntry} {x y : EventId} (h : AppendedBefore log x y) :
    x ∈ appended log ∧ y ∈ appended log :=
  ⟨h.subset (by simp), h.subset (by simp)⟩

/-- The entries depend on the classes of appended events only. -/
theorem scheduleEntries_congr {cls cls' : EventId → ConnEventClass} {log : List LogEntry}
    (hsub : ∀ e ∈ started log, e ∈ appended log) (hcls : ∀ e ∈ appended log, cls' e = cls e)
    (h : Entrywise (ScheduleEntry cls) log) : Entrywise (ScheduleEntry cls') log := by
  rw [entrywise_iff] at h ⊢
  intro x t hs
  have hx := h x t hs
  cases x with
  | start e =>
    have ht : t.IsSuffix log := (List.suffix_cons _ _).trans hs
    have hst : ∀ z ∈ started t, cls' z = cls z := fun z hz => hcls z (hsub z (mem_of_suffix ht hz))
    have hap : ∀ z ∈ appended t, cls' z = cls z := fun z hz => hcls z (mem_of_suffix ht hz)
    obtain ⟨he, h1, h2, h3⟩ := hx
    refine ⟨he, fun z hz hze => ?_, fun y hy hc => ?_, fun z hz hl => ?_⟩
    · rw [hst z hz, hap e he] at hze
      exact h1 z hz hze
    · rw [hap y (appendedBefore_mem hy).1, hap e he] at hc
      exact h2 y hy hc
    · rw [hst z hz, hap e he]
      exact h3 z hz hl
  | discard e => exact hx
  | _ => trivial

/-- Orderless entries keep the invariant, whatever they do to state, threads and problem. -/
theorem OrderInv.extend {v v' : QueueState} (hinv : OrderInv v)
    (xs : List LogEntry) (hlog : v'.log = xs ++ v.log) (hx : ∀ x ∈ xs, x.isOrderless = true)
    (hq : v'.queued = v.queued) (hact : v'.active = v.active)
    (htype : ∀ e ∈ allocated v.log, v'.typeOf e = v.typeOf e)
    (hacc : ∀ e ∈ accepted v'.log, e ∈ allocated v'.log)
    (hproblem : v'.problem = none → v.problem = none) : OrderInv v' := by
  obtain ⟨h1, h2, h3, h4, h5⟩ := orderless_log hx v.log
  rw [← hlog] at h1 h2 h3 h4 h5
  have halloc : ∀ e ∈ appended v.log, e ∈ allocated v.log := fun e he =>
    hinv.accepted_allocated e (hinv.appended_accepted e he)
  have hcls : ∀ e ∈ appended v.log, v'.classOf e = v.classOf e := fun e he => by
    rw [QueueState.classOf, htype e (halloc e he)]
    rfl
  have hsuf : v.log.IsSuffix v'.log := by
    rw [hlog]
    exact List.suffix_append _ _
  have hqa : ∀ e ∈ v.queued, e ∈ appended v.log := fun e he =>
    hinv.queued_sublist.subset (List.mem_reverse.mpr he)
  refine ⟨?_, ?_, hacc, ?_, ?_, ?_, ?_, ?_, ?_, ?_, ?_, ?_, ?_, ?_⟩
  · rw [h1]
    exact hinv.appended_nodup
  · rw [h1]
    exact fun e he => mem_of_suffix hsuf (hinv.appended_accepted e he)
  · rw [hq, h1]
    exact hinv.queued_sublist
  · rw [h1, h2]
    exact hinv.started_appended
  · rw [h2, h3]
    exact hinv.left_started
  · rw [h3]
    exact hinv.left_nodup
  · rw [hq, h2]
    exact hinv.queued_fresh
  · rw [h2, h3, hact]
    intro e he
    rw [hcls e (hinv.started_appended e he)]
    exact hinv.started_cases e he
  · rw [hact, h2, h3]
    exact hinv.active_started
  · rw [h1, h2, h4, hq]
    exact hinv.appended_cases
  · rw [h4, h5]
    intro e he
    rcases hinv.discarded_old e he with hp | hp
    · exact .inl fun hn => hp (hproblem hn)
    · exact .inr hp
  · rw [h2, hq]
    intro x hxs y hy hb
    rw [AppendedBefore, h1] at hb
    rw [hcls y (hqa y hy), hcls x (hinv.started_appended x hxs)]
    exact hinv.barrier x hxs y hy hb
  · have hold := scheduleEntries_congr hinv.started_appended hcls hinv.entries
    rw [hlog]
    exact entrywise_append (fun x hxx t => scheduleEntry_orderless (hx x hxx) t) hold

/-! ### Dropping the queue -/

theorem discards_log (l : List EventId) (log : List LogEntry) :
    appended (discards l ++ log) = appended log ∧ started (discards l ++ log) = started log ∧
      left (discards l ++ log) = left log ∧ accepted (discards l ++ log) = accepted log ∧
      allocated (discards l ++ log) = allocated log ∧
      discarded (discards l ++ log) = l.reverse ++ discarded log ∧
      oldLog (discards l ++ log) = oldLog log := by
  have hnone : ∀ f : LogEntry → Option EventId, (∀ e, f (.discard e) = none) →
      (discards l).filterMap f = [] := by
    intro f hf
    rw [List.filterMap_eq_nil_iff]
    intro x hx
    obtain ⟨e, _, rfl⟩ := List.mem_map.mp (List.mem_reverse.mp hx)
    exact hf e
  have hsome : (discards l).filterMap LogEntry.discard? = l.reverse := by
    rw [discards, ← List.map_reverse, List.filterMap_map]
    exact List.filterMap_some
  refine ⟨?_, ?_, ?_, ?_, ?_, ?_, ?_⟩
  · rw [appended, List.filterMap_append, hnone _ fun _ => rfl]
    rfl
  · rw [started, List.filterMap_append, hnone _ fun _ => rfl]
    rfl
  · rw [left, List.filterMap_append, hnone _ fun _ => rfl]
    rfl
  · rw [accepted, List.filterMap_append, hnone _ fun _ => rfl]
    rfl
  · rw [allocated, List.filterMap_append, hnone _ fun _ => rfl]
    rfl
  · rw [discarded, List.filterMap_append, hsome]
    rfl
  · rw [oldLog, List.dropWhile_append_of_pos]
    · rfl
    · intro x hx
      obtain ⟨e, _, rfl⟩ := List.mem_map.mp (List.mem_reverse.mp hx)
      rfl

/-- Only queued events are discarded. -/
theorem scheduleEntries_discard {cls : EventId → ConnEventClass} {xs log : List LogEntry}
    (hx : ∀ x ∈ xs, ∃ e ∈ appended log, x = .discard e)
    (h : Entrywise (ScheduleEntry cls) log) : Entrywise (ScheduleEntry cls) (xs ++ log) := by
  induction xs with
  | nil => exact h
  | cons x xs ih =>
    obtain ⟨e, he, rfl⟩ := hx x List.mem_cons_self
    exact ⟨mem_of_suffix (List.suffix_append xs log) he,
      ih fun y hy => hx y (List.mem_cons_of_mem _ hy)⟩

/-- What has been discarded has been queued. -/
theorem discarded_appended {cls : EventId → ConnEventClass} {log : List LogEntry}
    (h : Entrywise (ScheduleEntry cls) log) : ∀ e ∈ discarded log, e ∈ appended log := by
  intro e he
  obtain ⟨x, hx, hxe⟩ := List.mem_filterMap.mp he
  obtain ⟨a, t, rfl⟩ := List.append_of_mem hx
  cases x <;> cases hxe
  have hentry := entrywise_iff.mp h (.discard e) t (List.suffix_append a _)
  exact mem_of_suffix ((List.suffix_cons _ t).trans (List.suffix_append a _)) hentry

theorem OrderInv.dropQueue {v : QueueState} (hinv : OrderInv v) (hproblem : v.problem ≠ none) :
    OrderInv v.dropQueue := by
  obtain ⟨h1, h2, h3, h4, h5, h6, h7⟩ := discards_log v.queued v.log
  have hlog : v.dropQueue.log = discards v.queued ++ v.log := rfl
  refine ⟨?_, ?_, ?_, ?_, ?_, ?_, ?_, ?_, ?_, ?_, ?_, ?_, ?_, ?_⟩ <;> rw [hlog]
  · rw [h1]
    exact hinv.appended_nodup
  · rw [h1, h4]
    exact hinv.appended_accepted
  · rw [h4, h5]
    exact hinv.accepted_allocated
  · rw [h1]
    exact List.nil_sublist _
  · rw [h1, h2]
    exact hinv.started_appended
  · rw [h2, h3]
    exact hinv.left_started
  · rw [h3]
    exact hinv.left_nodup
  · intro e he
    cases he
  · rw [h2, h3]
    exact hinv.started_cases
  · rw [h2, h3]
    exact hinv.active_started
  · rw [h1, h2, h6]
    intro e he
    rcases hinv.appended_cases e he with hq | hs | hd
    · exact .inr (.inr (List.mem_append_left _ (List.mem_reverse.mpr hq)))
    · exact .inr (.inl hs)
    · exact .inr (.inr (List.mem_append_right _ hd))
  · exact fun _ _ => .inl hproblem
  · intro x _ y hy
    cases hy
  · refine scheduleEntries_discard (fun x hx => ?_) hinv.entries
    obtain ⟨e, he, rfl⟩ := mem_discards hx
    exact ⟨e, hinv.queued_sublist.subset (List.mem_reverse.mpr he), rfl⟩

theorem OrderInv.record {v : QueueState} (hinv : OrderInv v) (p : AsyncProblem) :
    OrderInv (v.record p) :=
  hinv.extend [_] rfl (by simp [LogEntry.isOrderless]) rfl rfl (fun _ _ => rfl)
    hinv.accepted_allocated fun h => by cases h

theorem OrderInv.abort {v : QueueState} (hinv : OrderInv v) (p : AsyncProblem) :
    OrderInv (v.abort p) :=
  (hinv.record p).dropQueue fun h => by cases h

theorem OrderInv.cancel {v : QueueState} (hinv : OrderInv v) (e : EventId) :
    OrderInv (v.write (.cancel e)) :=
  hinv.extend [_] rfl (by simp [LogEntry.isOrderless]) rfl rfl (fun _ _ => rfl)
    hinv.accepted_allocated fun h => h

/-! ### Leaving, appending, starting -/

theorem OrderInv.vacate {v : QueueState} (hinv : OrderInv v) (hslot : SlotInv v) {e : EventId}
    (he : v.active.get (v.classOf e) = some e) (st : ConnEventStatus) (err : Errno)
    (src : CodeSource) : OrderInv (v.vacate e st err src) := by
  refine ⟨hinv.appended_nodup, hinv.appended_accepted, hinv.accepted_allocated,
    hinv.queued_sublist, hinv.started_appended, ?_, ?_, hinv.queued_fresh, ?_, ?_,
    hinv.appended_cases, hinv.discarded_old, hinv.barrier, trivial, hinv.entries⟩
  · intro x hx
    rcases List.mem_cons.mp (show x ∈ e :: left v.log from hx) with rfl | hx
    · exact (hinv.active_started _ x he).1
    · exact hinv.left_started x hx
  · exact List.nodup_cons.mpr ⟨(hinv.active_started _ e he).2, hinv.left_nodup⟩
  · intro x hx
    show x ∈ e :: left v.log ∨ (v.active.set (v.classOf e) none).get (v.classOf x) = some x
    by_cases hxe : x = e
    · exact .inl (List.mem_cons.mpr (.inl hxe))
    · rcases hinv.started_cases x hx with hl | ha
      · exact .inl (List.mem_cons_of_mem _ hl)
      · right
        have hne : v.classOf x ≠ v.classOf e := by
          intro hc
          rw [hc, he] at ha
          exact hxe (Option.some.inj ha).symm
        rw [Slots.get_set_of_ne _ hne]
        exact ha
  · intro k x hk
    have hold := get_of_get_set_none (show (v.active.set (v.classOf e) none).get k = some x from hk)
    obtain ⟨hs, hl⟩ := hinv.active_started k x hold
    refine ⟨hs, ?_⟩
    show x ∉ e :: left v.log
    rw [List.mem_cons, not_or]
    refine ⟨?_, hl⟩
    rintro rfl
    have hck := hslot.slot_class k x hold
    have : (v.active.set (v.classOf x) none).get k = some x := hk
    rw [hck, Slots.get_set_self] at this
    cases this

theorem OrderInv.append {v : QueueState} (hinv : OrderInv v) {e : EventId}
    (halloc : e ∈ allocated v.log) (hfresh : e ∉ accepted v.log) :
    OrderInv (({ v with queued := v.queued ++ [e] }.write (.accept e)).write (.append e)) := by
  have hnew : e ∉ appended v.log := fun he => hfresh (hinv.appended_accepted e he)
  refine ⟨?_, ?_, ?_, ?_, ?_, hinv.left_started, hinv.left_nodup, ?_, hinv.started_cases,
    hinv.active_started, ?_, hinv.discarded_old, ?_, trivial, trivial, hinv.entries⟩
  · exact List.nodup_cons.mpr ⟨hnew, hinv.appended_nodup⟩
  · intro x hx
    rcases List.mem_cons.mp (show x ∈ e :: appended v.log from hx) with rfl | hx
    · exact List.mem_cons_self
    · exact List.mem_cons_of_mem _ (hinv.appended_accepted x hx)
  · intro x hx
    rcases List.mem_cons.mp (show x ∈ e :: accepted v.log from hx) with rfl | hx
    · exact halloc
    · exact hinv.accepted_allocated x hx
  · show (v.queued ++ [e]).reverse.Sublist (e :: appended v.log)
    rw [List.reverse_append]
    exact hinv.queued_sublist.cons_cons e
  · exact fun x hx => List.mem_cons_of_mem _ (hinv.started_appended x hx)
  · intro x hx
    rcases List.mem_append.mp (show x ∈ v.queued ++ [e] from hx) with hx | hx
    · exact hinv.queued_fresh x hx
    · rw [List.mem_singleton.mp hx]
      exact fun hs => hnew (hinv.started_appended e hs)
  · intro x hx
    rcases List.mem_cons.mp (show x ∈ e :: appended v.log from hx) with rfl | hx
    · exact .inl (List.mem_append_right _ (by simp))
    · rcases hinv.appended_cases x hx with hq | hrest
      · exact .inl (List.mem_append_left _ hq)
      · exact .inr hrest
  · intro x hx y hy hb
    have hxa : x ∈ appended v.log := hinv.started_appended x hx
    have hxe : x ≠ e := by
      rintro rfl
      exact hnew hxa
    -- nothing started has been appended after the new event
    have hb' : AppendedBefore v.log y x := by
      cases (show [x, y].Sublist (e :: appended v.log) from hb) with
      | cons _ h => exact h
      | cons_cons _ h => exact absurd rfl hxe
    have hyq : y ∈ v.queued := by
      rcases List.mem_append.mp (show y ∈ v.queued ++ [e] from hy) with hy | hy
      · exact hy
      · rw [List.mem_singleton.mp hy] at hb'
        exact absurd (appendedBefore_mem hb').1 hnew
    exact hinv.barrier x hx y hyq hb'

/-- What was appended before a startable event and is still queued has been skipped. -/
theorem OrderInv.mem_skipped {v : QueueState} (hinv : OrderInv v) {a b : List EventId}
    {e y : EventId} (hq : v.queued = a ++ e :: b) (hy : y ∈ v.queued)
    (h : AppendedBefore v.log y e) : y ∈ a := by
  have he : e ∈ v.queued := by simp [hq]
  have hrev : [e, y].Sublist v.queued.reverse :=
    pair_of_sublist hinv.appended_nodup hinv.queued_sublist (List.mem_reverse.mpr he)
      (List.mem_reverse.mpr hy) h
  have hpair : [y, e].Sublist v.queued := by
    have := List.reverse_sublist.mpr hrev
    simpa using this
  have hnd : v.queued.Nodup :=
    List.nodup_reverse.mp (hinv.appended_nodup.sublist hinv.queued_sublist)
  rw [hq] at hpair hnd
  exact mem_left_of_pair hnd hpair

/-- **A startable event meets the schedule (proved).** -/
theorem OrderInv.scheduleEntry {v : QueueState} (hinv : OrderInv v) {a b : List EventId}
    {e : EventId} (hq : v.queued = a ++ e :: b) (hs : Startable v a e) :
    ScheduleEntry v.classOf (.start e) v.log := by
  have he : e ∈ v.queued := by simp [hq]
  have hea : e ∈ appended v.log := hinv.queued_sublist.subset (List.mem_reverse.mpr he)
  have hes : e ∉ started v.log := hinv.queued_fresh e he
  refine ⟨hea, ?_, ?_, ?_⟩
  · intro z hz hc
    have hze : e ≠ z := by
      rintro rfl
      exact hes hz
    rcases pair_total hea (hinv.started_appended z hz) hze with h | h
    · exact h
    · exact absurd hc (hinv.barrier z hz e he h).2.2
  · intro y hy hc
    rcases hinv.appended_cases y (appendedBefore_mem hy).1 with hyq | hys | hyd
    · obtain ⟨h1, _, h3⟩ := hs.skipped y (hinv.mem_skipped hq hyq hy)
      rcases hc with hc | hc
      · exact absurd hc h1
      · exact absurd hc h3
    · rcases hinv.started_cases y hys with hl | ha
      · exact .inl hl
      · exfalso
        rcases hc with hc | hc
        · rw [hc] at ha
          rw [show v.active.get .connect = none from hs.connect_free] at ha
          cases ha
        · rw [hs.alone hc] at ha
          cases ha
    · rcases hinv.discarded_old y hyd with hp | ho
      · exact absurd hs.problem hp
      · exact .inr ho
  · intro z hz hl
    have ha : v.active.get (v.classOf z) = some z := by
      rcases hinv.started_cases z hz with h | h
      · exact absurd h hl
      · exact h
    refine ⟨fun hc => ?_, fun hc => ?_, fun hc => ?_⟩
    · rw [hc, hs.slot_free] at ha
      cases ha
    · rw [hc, show v.active.get .connect = none from hs.connect_free] at ha
      cases ha
    · rw [hs.alone hc] at ha
      cases ha

theorem OrderInv.start {v : QueueState} (hinv : OrderInv v) {a b : List EventId} {e : EventId}
    (hq : v.queued = a ++ e :: b) (hs : Startable v a e) :
    OrderInv ({ v with queued := a ++ b, active := v.active.set (v.classOf e) (some e) }.write
      (.start e)) := by
  have he : e ∈ v.queued := by simp [hq]
  have hea : e ∈ appended v.log := hinv.queued_sublist.subset (List.mem_reverse.mpr he)
  have hes : e ∉ started v.log := hinv.queued_fresh e he
  have hnd : v.queued.Nodup :=
    List.nodup_reverse.mp (hinv.appended_nodup.sublist hinv.queued_sublist)
  have hsub : (a ++ b).Sublist v.queued := by
    rw [hq]
    exact (List.Sublist.refl a).append (List.sublist_cons_self e b)
  have heab : ∀ y ∈ a ++ b, y ≠ e := by
    rintro y hy rfl
    rw [hq] at hnd
    have := (List.perm_middle.nodup_iff.mp hnd)
    exact (List.nodup_cons.mp this).1 hy
  refine ⟨hinv.appended_nodup, hinv.appended_accepted, hinv.accepted_allocated, ?_, ?_,
    fun x hx => List.mem_cons_of_mem _ (hinv.left_started x hx), hinv.left_nodup, ?_, ?_, ?_, ?_,
    hinv.discarded_old, ?_, hinv.scheduleEntry hq hs, hinv.entries⟩
  · exact (List.reverse_sublist.mpr hsub).trans hinv.queued_sublist
  · intro x hx
    rcases List.mem_cons.mp (show x ∈ e :: started v.log from hx) with rfl | hx
    · exact hea
    · exact hinv.started_appended x hx
  · intro y hy
    show y ∉ e :: started v.log
    rw [List.mem_cons, not_or]
    exact ⟨heab y hy, hinv.queued_fresh y (hsub.subset hy)⟩
  · intro x hx
    show x ∈ left v.log ∨ (v.active.set (v.classOf e) (some e)).get (v.classOf x) = some x
    rcases List.mem_cons.mp (show x ∈ e :: started v.log from hx) with rfl | hx
    · right
      rw [Slots.get_set_self]
    · rcases hinv.started_cases x hx with hl | ha
      · exact .inl hl
      · right
        have hne : v.classOf x ≠ v.classOf e := by
          intro hc
          rw [hc, hs.slot_free] at ha
          cases ha
        rw [Slots.get_set_of_ne _ hne]
        exact ha
  · intro k x hk
    have hk' : (v.active.set (v.classOf e) (some e)).get k = some x := hk
    show x ∈ e :: started v.log ∧ x ∉ left v.log
    rw [Slots.get_set] at hk'
    split at hk'
    · cases hk'
      exact ⟨List.mem_cons_self, fun hl => hes (hinv.left_started _ hl)⟩
    · obtain ⟨h1, h2⟩ := hinv.active_started k x hk'
      exact ⟨List.mem_cons_of_mem _ h1, h2⟩
  · intro x hx
    rcases hinv.appended_cases x hx with hxq | hxs | hxd
    · rw [hq] at hxq
      rcases List.mem_append.mp hxq with h | h
      · exact .inl (List.mem_append_left _ h)
      · rcases List.mem_cons.mp h with rfl | h
        · exact .inr (.inl List.mem_cons_self)
        · exact .inl (List.mem_append_right _ h)
    · exact .inr (.inl (List.mem_cons_of_mem _ hxs))
    · exact .inr (.inr hxd)
  · intro x hx y hy hb
    have hyq : y ∈ v.queued := hsub.subset hy
    rcases List.mem_cons.mp (show x ∈ e :: started v.log from hx) with rfl | hx
    · obtain ⟨h1, h2, h3⟩ := hs.skipped y (hinv.mem_skipped hq hyq hb)
      exact ⟨h1, h3, Ne.symm h2⟩
    · exact hinv.barrier x hx y hyq hb

theorem OrderInv.prepare {v : QueueState} (hinv : OrderInv v) (sm : AsyncSummary)
    (hq : v.queued = []) :
    OrderInv ({ v with queued := [], problem := none, threads := 0, state := .idle }.write
      (.prepare sm)) := by
  have hqs := hinv.queued_sublist
  have hac := hinv.appended_cases
  have hb := hinv.barrier
  have hqf := hinv.queued_fresh
  rw [hq] at hqs hac hb hqf
  exact ⟨hinv.appended_nodup, hinv.appended_accepted, hinv.accepted_allocated, hqs,
    hinv.started_appended, hinv.left_started, hinv.left_nodup, hqf, hinv.started_cases,
    hinv.active_started, hac, fun _ he => .inr he, hb, trivial, hinv.entries⟩

/-- **Every step keeps the order invariant (proved).** -/
theorem orderInv_step {v v' : QueueState} {ℓ : QueueLabel} (hinv : OrderInv v)
    (hslot : SlotInv v) (hst : StateInv v) (h : QueueStep v ℓ v') : OrderInv v' := by
  have haa := hinv.accepted_allocated
  have hnew : ∀ {e : EventId}, e ∈ allocated v.log → ∀ x ∈ e :: accepted v.log,
      x ∈ allocated v.log := by
    intro e he x hx
    rcases List.mem_cons.mp hx with rfl | hx
    · exact he
    · exact haa x hx
  cases h with
  | alloc fresh =>
    refine hinv.extend [_] rfl (by simp [LogEntry.isOrderless]) rfl rfl (fun x hx => ?_)
      (fun x hx => List.mem_cons_of_mem _ (haa x hx)) fun h => h
    refine Function.update_of_ne ?_ _ _
    rintro rfl
    exact fresh hx
  | @quiet x hq =>
    have ho : x.isOrderless = true := by
      revert hq
      cases x <;> simp [LogEntry.isQuiet, LogEntry.isOrderless]
    have hacc : accepted (x :: v.log) = accepted v.log ∧ allocated (x :: v.log) = allocated v.log := by
      revert hq
      cases x <;> intro hq <;> first | exact ⟨rfl, rfl⟩ | cases hq
    refine hinv.extend [x] rfl (by simp [ho]) rfl rfl (fun _ _ => rfl) ?_ fun h => h
    show ∀ e ∈ accepted (x :: v.log), e ∈ allocated (x :: v.log)
    rw [hacc.1, hacc.2]
    exact haa
  | enterClient =>
    exact hinv.extend [] rfl (by simp) rfl rfl (fun _ _ => rfl) haa fun h => h
  | append _ _ alloc fresh => exact hinv.append alloc fresh
  | drop _ _ alloc =>
    exact hinv.extend [_, _] rfl (by simp [LogEntry.isOrderless]) rfl rfl (fun _ _ => rfl)
      (hnew alloc) fun h => h
  | dropShutdown _ _ alloc =>
    exact hinv.extend [_, _, _] rfl (by simp [LogEntry.isOrderless]) rfl rfl (fun _ _ => rfl)
      (hnew alloc) fun h => by cases h
  | abort => exact hinv.abort _
  | again | enter | exitEmpty =>
    exact hinv.extend [_] rfl (by simp [LogEntry.isOrderless]) rfl rfl (fun _ _ => rfl) haa
      fun h => h
  | start queued startable => exact hinv.start queued startable
  | finishCancelled fin => exact (hinv.vacate hslot fin.slot _ _ _).cancel _
  | finishFailed fin => exact (hinv.vacate hslot fin.slot _ _ _).abort _
  | finishPartial fin => exact (hinv.vacate hslot fin.slot _ _ _).record _
  | finishShutdown fin => exact ((hinv.vacate hslot fin.slot _ _ _).cancel _).abort _
  | finishComplete fin => exact hinv.vacate hslot fin.slot _ _ _
  | exit => exact hinv.extend [] rfl (by simp) rfl rfl (fun _ _ => rfl) haa fun h => h
  | exitDone | submit =>
    exact hinv.extend [_, _] rfl (by simp [LogEntry.isOrderless]) rfl rfl (fun _ _ => rfl) haa
      fun h => h
  | submitEmpty =>
    exact hinv.extend [_, _, _] rfl (by simp [LogEntry.isOrderless]) rfl rfl (fun _ _ => rfl) haa
      fun h => by cases h
  | submitAgain =>
    exact hinv.extend [_, _, _] rfl (by simp [LogEntry.isOrderless]) rfl rfl (fun _ _ => rfl) haa
      fun h => h
  | prepare state => exact hinv.prepare _ (hst.complete state).1

/-! ### Unfinished events -/

/-- The events that have been started and have not left their slot. -/
def Unfinished (log : List LogEntry) (e : EventId) : Prop := e ∈ started log ∧ e ∉ left log

/-- **Each class has at most one unfinished event, and a connect event is alone (proved).** -/
theorem unfinished_unique {cls : EventId → ConnEventClass} {log : List LogEntry}
    (h : Entrywise (ScheduleEntry cls) log) : ∀ x y, Unfinished log x → Unfinished log y →
      cls x = cls y ∨ cls x = .connect → x = y := by
  induction log with
  | nil =>
    intro x _ hx
    cases hx.1
  | cons entry t ih =>
    have ih := ih h.2
    intro x y hx hy hc
    cases entry with
    | start e =>
      obtain ⟨_, _, _, hbusy⟩ := h.1
      have hsplit : ∀ z, Unfinished (.start e :: t) z → z = e ∨ Unfinished t z := by
        rintro z ⟨hs, hl⟩
        rcases List.mem_cons.mp (show z ∈ e :: started t from hs) with hz | hz
        · exact .inl hz
        · exact .inr ⟨hz, hl⟩
      rcases hsplit x hx with rfl | hx' <;> rcases hsplit y hy with rfl | hy'
      · rfl
      · obtain ⟨h1, _, h3⟩ := hbusy y hy'.1 hy'.2
        rcases hc with hc | hc
        · exact absurd hc.symm h1
        · exact absurd hc h3
      · obtain ⟨h1, h2, _⟩ := hbusy x hx'.1 hx'.2
        rcases hc with hc | hc
        · exact absurd hc h1
        · exact absurd hc h2
      · exact ih x y hx' hy' hc
    | leave e st err src =>
      have hsub : ∀ z, Unfinished (.leave e st err src :: t) z → Unfinished t z := fun z hz =>
        ⟨hz.1, fun hl => hz.2 (List.mem_cons_of_mem _ hl)⟩
      exact ih x y (hsub x hx) (hsub y hy) hc
    | _ => exact ih x y hx hy hc

end Connio
