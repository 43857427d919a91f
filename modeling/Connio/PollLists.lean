import Connio.PollLocks
import Connio.PollTokens

/-!
# The timeout lists

An event is on a timeout list while its timeout is pending, and the list changes only under its lock; the events that
the poll thread has still to take off keep theirs.

* `EngineOp.run_list` — **PROVED**: an operation takes an event off a list or puts it on one only when it has the lock;
* `ListInv`, `pollStep_listInv` — **PROVED**: an event on a list, or still to be taken off one, is in the engine.
-/

namespace Connio

open Connio.Lib

/-! ### One event -/

/-- A timeout is pending exactly while the event is on a list, and only in the engine. -/
structure TimedEvent.Timed (ev : TimedEvent) : Prop where
  pending : ev.pending = ev.timeoutList.isSome
  engine : ev.pending = true → ev.se.inEngine = true

/-- An event that leaves the engine is on no list. -/
theorem TimedEvent.Timed.left {ev : TimedEvent} (h : ev.Timed) :
    (if ev.pending then none else ev.timeoutList) = none := by
  have hpending := h.pending
  cases hlist : ev.timeoutList with
  | none => simp
  | some l =>
    rw [hlist] at hpending
    simp [show ev.pending = true from hpending]

/-- **An operation changes the list of an event only with the list's lock (proved).** -/
theorem EngineOp.run_list (op : EngineOp) (t : EngineThread) {ev : TimedEvent} (h : ev.Timed) (hsound : ev.Sound)
    (hhandle : ∀ e, op = .handle e → ev.token = .handling t) :
    (op.run t ev).2.Timed ∧
      ∀ l, op.needs ev ≠ some l → ((op.run t ev).2.timeoutList = some l ↔ ev.timeoutList = some l) := by
  have hout : ev.se.inEngine = false → ev.pending = false ∧ ev.timeoutList = none := by
    intro hin
    have hpending : ev.pending = false := by
      cases hp : ev.pending with
      | false => rfl
      | true =>
        rw [h.engine hp] at hin
        cases hin
    refine ⟨hpending, ?_⟩
    have hlist := h.pending
    rw [hpending] at hlist
    exact Option.isNone_iff_eq_none.mp (by simpa using hlist.symm)
  have hunlinked : ev.se.arg = none → ev.se.inEngine = false := by
    intro harg
    by_contra hin
    have hlinked := hsound.linked.mpr (by rw [hsound.engine.mp (by simpa using hin)]; simp)
    rw [harg] at hlinked
    cases hlinked
  rcases op.run_cases t ev with hr | ⟨harg, se, hse, hin, hr⟩ | ⟨e, type, cbArg, err, timeout, hop, herr, harg, hr⟩ |
    ⟨e, hop, hr⟩ | ⟨err, _, hneeds, hr⟩
  · rw [hr]
    exact ⟨h, fun _ _ => Iff.rfl⟩
  · obtain ⟨hpending, hlist⟩ := hout (hunlinked harg)
    rw [hr]
    exact ⟨⟨h.pending, by simp [hpending]⟩, fun _ _ => Iff.rfl⟩
  · obtain ⟨hpending, hlist⟩ := hout (hunlinked harg)
    rw [hr]
    refine ⟨⟨by simp [hpending, hlist], fun _ => rfl⟩, ?_⟩
    intro l hneeds
    rw [hop, EngineOp.needs, harg, hlist] at hneeds
    simp only [hlist, Option.none_or]
    simpa [herr] using hneeds
  · have hin : ev.se.inEngine = false := by
      by_contra hin
      have hengine := hsound.engine.mp (by simpa using hin)
      rw [hhandle e hop] at hengine
      cases hengine
    obtain ⟨hpending, hlist⟩ := hout hin
    rw [hr]
    exact ⟨⟨h.pending, by simp [hpending]⟩, fun _ _ => Iff.rfl⟩
  · have hfields : (op.run t ev).2.pending = false ∧ (op.run t ev).2.timeoutList = none := by
      rw [hr]
      cases hin : ev.se.inEngine with
      | true =>
        rw [TimedEvent.leave_pos t err hin]
        exact ⟨rfl, h.left⟩
      | false =>
        rw [TimedEvent.leave_neg t err hin]
        exact ⟨rfl, h.left⟩
    obtain ⟨hpending, hlist⟩ := hfields
    refine ⟨⟨by rw [hpending, hlist]; rfl, by simp [hpending]⟩, ?_⟩
    intro l hnot
    rw [hlist]
    constructor
    · intro hl
      cases hl
    · intro hl
      -- its timeout is pending, and the operation takes the lock of its list
      have hp : ev.pending = true := by rw [h.pending, hl]; rfl
      rw [hneeds (h.engine hp) hp] at hnot
      exact absurd hl hnot

theorem EngineOp.needs_congr (op : EngineOp) {ev ev' : TimedEvent} (hse : ev'.se = ev.se)
    (hpending : ev'.pending = ev.pending) (hlist : ev'.timeoutList = ev.timeoutList) : op.needs ev' = op.needs ev := by
  cases op <;> simp only [EngineOp.needs, hse, hpending, hlist]

/-! ### The lists -/

/-- The list that a thread is about to change. -/
def LockTask.needing : LockTask → Option (EngineOp × ℕ)
  | wantsList op l | hasList op l => some (op, l)
  | _ => none

/-- **The invariant of the lists.** -/
structure ListInv (s : PollEngine) : Prop where
  locks : LockInv s
  tokens : EventTokenInv s
  timed : ∀ e, (s.event e).Timed
  needs : ∀ t op l, (s.task t).bind LockTask.needing = some (op, l) → op.needs (s.event op.event) = some l
  mem : ∀ l e, e ∈ s.list l → (s.event e).timeoutList = some l
  nodup : ∀ l, (s.list l).Nodup
  /-- nobody changes the list that expires, nor the events that are still to be taken off it -/
  todo : ∀ x, s.poll.holding = some x → s.list x.1 = [] ∧ x.2.Nodup ∧ ∀ e ∈ x.2, (s.event e).timeoutList = some x.1

section Lists

variable {s s' : PollEngine}

/-- An event on a list is in the engine, hence linked. -/
theorem ListInv.linked (h : ListInv s) {e : EventRef} {l : ℕ} (hl : (s.event e).timeoutList = some l) :
    (s.event e).se.arg.isSome = true := by
  have hpending : (s.event e).pending = true := by
    rw [(h.timed e).pending, hl]
    rfl
  have hengine := (h.tokens.sound e).engine.mp ((h.timed e).engine hpending)
  exact (h.tokens.sound e).linked.mpr (by rw [hengine]; simp)

/-- A thread that is about to change a list has the `slock` of its event. -/
theorem ListInv.slock_needing (h : ListInv s) {t : EngineThread} {op : EngineOp} {l : ℕ}
    (ht : (s.task t).bind LockTask.needing = some (op, l)) : s.slock op.event.cs = some t := by
  obtain ⟨task, htask, hneeding⟩ := Option.bind_eq_some_iff.mp ht
  apply (h.locks.slock _ t).mpr
  rw [holdsSlock_task htask]
  cases task with
  | wantsList op' l' | hasList op' l' =>
    cases hneeding
    rfl
  | wants | releasing | begins => cases hneeding

/-- The poll thread with a list has no operation. -/
theorem ListInv.idle (h : ListInv s) {x : ℕ × List EventRef} (hx : s.poll.holding = some x) :
    s.task .poll = none ∧ s.listLock x.1 = some .poll := by
  have hidle : s.task .poll = none := by
    by_contra hbusy
    rw [(h.locks.loop hbusy).1] at hx
    cases hx
  refine ⟨hidle, (h.locks.listLock _ _).mpr ?_⟩
  rw [holdsListLock_idle hidle, show s.loop .poll = s.poll from rfl, hx]
  rfl

/-- A step that changes no event and no list. -/
theorem ListInv.keep (h : ListInv s) (hlocks : LockInv s') (htokens : EventTokenInv s')
    (hevent : ∀ e, (s'.event e).se = (s.event e).se ∧ (s'.event e).pending = (s.event e).pending ∧
      (s'.event e).timeoutList = (s.event e).timeoutList) (hlist : s'.list = s.list)
    (hneeds : ∀ t op l, (s'.task t).bind LockTask.needing = some (op, l) → op.needs (s.event op.event) = some l)
    (htodo : ∀ x, s'.poll.holding = some x → s.poll.holding = some x) : ListInv s' where
  locks := hlocks
  tokens := htokens
  timed e := by
    obtain ⟨hse, hpending, htl⟩ := hevent e
    exact ⟨by rw [hpending, htl]; exact (h.timed e).pending, by rw [hpending, hse]; exact (h.timed e).engine⟩
  needs t op l ht := by
    obtain ⟨hse, hpending, htl⟩ := hevent op.event
    rw [op.needs_congr hse hpending htl]
    exact hneeds t op l ht
  mem l e he := by
    rw [(hevent e).2.2]
    exact h.mem l e (hlist ▸ he)
  nodup l := hlist ▸ h.nodup l
  todo x hx := by
    obtain ⟨hnil, hnodup, hall⟩ := h.todo x (htodo x hx)
    exact ⟨hlist ▸ hnil, hnodup, fun e he => (hevent e).2.2.trans (hall e he)⟩

/-- The list of an event changes as the event does. -/
theorem mem_setEvent (hnodup : ∀ l, (s.list l).Nodup) (hmem : ∀ l e, e ∈ s.list l → (s.event e).timeoutList = some l)
    {e : EventRef} {ev : TimedEvent} {l : ℕ} {e' : EventRef} (he' : e' ∈ (s.setEvent e ev).list l) :
    ((s.setEvent e ev).event e').timeoutList = some l := by
  have hother : e' ≠ e → e' ∈ s.list l → ((s.setEvent e ev).event e').timeoutList = some l := by
    intro hne hold
    rw [show (s.setEvent e ev).event e' = s.event e' from if_neg hne]
    exact hmem l e' hold
  have hself : ev.timeoutList = some l → ((s.setEvent e ev).event e).timeoutList = some l := by
    intro hl
    rw [show (s.setEvent e ev).event e = ev from if_pos rfl]
    exact hl
  simp only [PollEngine.setEvent] at he'
  split at he'
  next =>
    obtain ⟨hne, hold⟩ := (hnodup l).mem_erase_iff.mp he'
    exact hother hne hold
  next hstays =>
    split at he'
    next hadded =>
      by_cases hee : e' = e
      · rw [hee]
        exact hself hadded.1
      · exact hother hee ((List.mem_cons.mp he').resolve_left hee)
    next =>
      by_cases hee : e' = e
      · rw [hee] at he' ⊢
        have hl := hmem l e he'
        exact hself (by_contra fun hnot => hstays ⟨hl, hnot⟩)
      · exact hother hee he'

theorem nodup_setEvent (hnodup : ∀ l, (s.list l).Nodup)
    (hmem : ∀ l e, e ∈ s.list l → (s.event e).timeoutList = some l) (e : EventRef) (ev : TimedEvent) (l : ℕ) :
    ((s.setEvent e ev).list l).Nodup := by
  simp only [PollEngine.setEvent]
  split
  next => exact (hnodup l).erase e
  next =>
    split
    next hadded => exact List.nodup_cons.mpr ⟨fun he => hadded.2 (hmem l e he), hnodup l⟩
    next => exact hnodup l

/-- A list that an event is neither taken off nor put on. -/
theorem setEvent_list {e : EventRef} {ev : TimedEvent} {l : ℕ}
    (hsame : ev.timeoutList = some l ↔ (s.event e).timeoutList = some l) : (s.setEvent e ev).list l = s.list l := by
  simp only [PollEngine.setEvent]
  split
  next hgone => exact absurd (hsame.mpr hgone.1) hgone.2
  next =>
    split
    next hadded => exact absurd (hsame.mp hadded.1) hadded.2
    next => rfl

/-- **An operation keeps the lists (proved):** the thread has the `slock`, and the lock of the list that it changes. -/
theorem ListInv.perform (h : ListInv s) {t : EngineThread} {op : EngineOp} {s' : PollEngine}
    (hlocks : LockInv s') (htokens : EventTokenInv s') (hevent : s'.event = (s.perform t op).event)
    (hlist : s'.list = (s.perform t op).list) (hpoll : s'.poll = s.poll) (htask : s'.task = (s.perform t op).task)
    (hhandle : ∀ e, op = .handle e → (s.event e).token = .handling t) (hbusy : s.task t ≠ none)
    (hslock : s.slock op.event.cs = some t ∨ s.slock op.event.cs = none)
    (hneeds : ∀ l, op.needs (s.event op.event) = some l → s.listLock l = some t) : ListInv s' := by
  have hother : ∀ e, e ≠ op.event → s'.event e = s.event e := by
    intro e he
    rw [hevent]
    exact if_neg he
  have hat : s'.event op.event = (op.run t (s.event op.event)).2 := by
    rw [hevent]
    exact if_pos rfl
  obtain ⟨htimed, hsame⟩ := op.run_list t (h.timed op.event) (h.tokens.sound op.event)
    fun e hop => by rw [hop]; exact hhandle e hop
  refine ⟨hlocks, htokens, ?_, ?_, ?_, ?_, ?_⟩
  · intro e
    by_cases he : e = op.event
    · rw [he, hat]
      exact htimed
    · rw [hother e he]
      exact h.timed e
  · intro u op' l hu
    rw [htask] at hu
    by_cases hut : u = t
    · rw [hut, show (s.perform t op).task t = some (.releasing op _) from if_pos rfl] at hu
      cases hu
    · rw [show (s.perform t op).task u = s.task u from if_neg hut] at hu
      have hhas := h.slock_needing hu
      -- the event is another one: its `slock` is with the other thread
      have hne : op'.event ≠ op.event := by
        intro hee
        rw [hee] at hhas
        rcases hslock with hslock | hslock
        · rw [hslock] at hhas
          cases hhas
          exact hut rfl
        · rw [hslock] at hhas
          cases hhas
      rw [hother _ hne]
      exact h.needs u op' l hu
  · intro l e he
    rw [hlist] at he
    rw [hevent]
    exact mem_setEvent h.nodup h.mem he
  · intro l
    rw [hlist]
    exact nodup_setEvent h.nodup h.mem _ _ l
  · intro x hx
    rw [hpoll] at hx
    obtain ⟨hidle, hhas⟩ := h.idle hx
    obtain ⟨hnil, hnodup, hall⟩ := h.todo x hx
    have hnot : op.needs (s.event op.event) ≠ some x.1 := by
      intro hn
      have hlock := hneeds x.1 hn
      rw [hhas] at hlock
      cases hlock
      exact hbusy hidle
    refine ⟨?_, hnodup, ?_⟩
    · rw [hlist]
      exact (setEvent_list (hsame x.1 hnot)).trans hnil
    · intro e he
      by_cases hee : e = op.event
      · rw [hee, hat]
        exact (hsame x.1 hnot).mpr (hee ▸ hall e he)
      · rw [hother e hee]
        exact hall e he

/-! ### One step -/

/-- Another task of a thread, which changes no list that the old one does not. -/
theorem needing_setTask {t : EngineThread} (task : Option LockTask)
    (h : ∀ op l, task.bind LockTask.needing = some (op, l) → op.needs (s.event op.event) = some l)
    (hs : ∀ t op l, (s.task t).bind LockTask.needing = some (op, l) → op.needs (s.event op.event) = some l)
    (u : EngineThread) (op : EngineOp) (l : ℕ)
    (hu : ((s.setTask t task).task u).bind LockTask.needing = some (op, l)) : op.needs (s.event op.event) = some l := by
  by_cases hut : u = t
  · rw [hut, setTask_self] at hu
    exact h op l hu
  · rw [setTask_ne hut] at hu
    exact hs u op l hu

/-- A thread goes on with its operation. -/
theorem ListInv.advance (h : ListInv s) {t : EngineThread} {task : LockTask} (ht : s.task t = some task)
    (hlocks : LockInv s') (htokens : EventTokenInv s') (hs : s.advance t task = some s') : ListInv s' := by
  have hbusy : s.task t ≠ none := by simp [ht]
  have hsame : ∀ e, (s.event e).se = (s.event e).se ∧ (s.event e).pending = (s.event e).pending ∧
      (s.event e).timeoutList = (s.event e).timeoutList := fun _ => ⟨rfl, rfl, rfl⟩
  have hhandle : ∀ op : EngineOp, task.handles = op.handles →
      ∀ e, op = .handle e → (s.event e).token = .handling t := by
    intro op hop e he
    apply h.tokens.handling t e
    rw [ht]
    exact hop.trans (EngineOp.handles_iff.mpr he)
  cases task with
  | wants op =>
    simp only [PollEngine.advance] at hs
    split at hs
    next hfree =>
      split at hs
      next l hneeds =>
        cases hs
        refine h.keep hlocks htokens hsame rfl (needing_setTask _ ?_ h.needs) fun x hx => hx
        intro op' l' hop'
        cases hop'
        exact hneeds
      next hneeds =>
        cases hs
        refine h.perform hlocks htokens rfl rfl rfl rfl (hhandle op rfl) hbusy (.inr hfree) ?_
        intro l hl
        rw [hneeds] at hl
        cases hl
    next => cases hs
  | wantsList op l =>
    simp only [PollEngine.advance] at hs
    split at hs
    next =>
      cases hs
      refine h.keep hlocks htokens hsame rfl (needing_setTask _ ?_ h.needs) fun x hx => hx
      intro op' l' hop'
      apply h.needs t op' l'
      rw [ht]
      exact hop'
    next => cases hs
  | hasList op l =>
    cases hs
    have hneeding : (s.task t).bind LockTask.needing = some (op, l) := by
      rw [ht]
      rfl
    refine h.perform hlocks htokens rfl rfl rfl rfl (hhandle op rfl) hbusy (.inl (h.slock_needing hneeding)) ?_
    intro l' hl'
    rw [h.needs t op l hneeding] at hl'
    cases hl'
    exact (h.locks.listLock l t).mpr (holdsListLock_task ht)
  | releasing op begins =>
    cases hs
    refine h.keep hlocks htokens hsame rfl (needing_setTask _ ?_ h.needs) fun x hx => hx
    intro op' l' hop'
    cases begins <;> cases hop'
  | begins e =>
    cases hs
    refine h.keep hlocks htokens ?_ ?_ (needing_setTask _ ?_ h.needs) fun x hx => hx
    · intro e'
      by_cases hee : e' = e
      · simp [PollEngine.setTask, PollEngine.setEvent, PollEngine.use, hee]
      · simp [PollEngine.setTask, PollEngine.setEvent, PollEngine.use, hee]
    · funext l
      exact setEvent_list (s := s.use t e) Iff.rfl
    · intro op' l' hop'
      cases hop'

/-- A worker begins an operation. -/
theorem ListInv.start (h : ListInv s) {i : ℕ} {op : EngineOp} (hlocks : LockInv s') (htokens : EventTokenInv s')
    (hs : pollStep s (.start i op) = some s') : ListInv s' := by
  have hneeds := needing_setTask (s := s) (t := .worker i) (some (.wants op)) (fun op' l hop' => by cases hop')
    h.needs
  simp only [pollStep] at hs
  split at hs
  next =>
    cases op with
    | submit | kill | ready | expire =>
      cases hs
      exact h.keep hlocks htokens (fun _ => ⟨rfl, rfl, rfl⟩) rfl hneeds fun x hx => hx
    | handle e =>
      cases hs
      refine h.keep hlocks htokens ?_ ?_ hneeds fun x hx => hx
      · intro e'
        by_cases hee : e' = e
        · simp [PollEngine.setTask, PollEngine.setEvent, hee]
        · simp [PollEngine.setTask, PollEngine.setEvent, hee]
      · funext l
        exact setEvent_list (s := s.setTask (.worker i) (some (.wants (.handle e)))) Iff.rfl
  next => cases hs

/-- The poll thread takes the next event off the list that expires: it has the event's `slock`. -/
theorem ListInv.detach (h : ListInv s) (hlocks : LockInv s') (htokens : EventTokenInv s') {l : ℕ}
    {done : List (EventRef × ℕ)} {e : EventRef} {todo : List EventRef}
    (hp : s.poll = .detaching l done (e :: todo) true) (hevent : s'.event = (s.detach e).event) (hlist : s'.list = s.list)
    (htask : s'.task = s.task) (hpoll : s'.poll.holding = some (l, todo)) : ListInv s' := by
  have hx : s.poll.holding = some (l, e :: todo) := by rw [hp]; rfl
  obtain ⟨hidle, _⟩ := h.idle hx
  obtain ⟨hnil, hnodup, hall⟩ := h.todo _ hx
  have hslock : s.slock e.cs = some .poll := by
    apply (h.locks.slock _ .poll).mpr
    rw [holdsSlock_idle hidle, show s.loop .poll = s.poll from rfl, hp]
    rfl
  have hother : ∀ e', e' ≠ e → s'.event e' = s.event e' := by
    intro e' hee
    rw [hevent]
    exact if_neg hee
  have hat : s'.event e = { s.event e with pending := false, timeoutList := none } := by
    rw [hevent]
    exact if_pos rfl
  refine ⟨hlocks, htokens, ?_, ?_, ?_, ?_, ?_⟩
  · intro e'
    by_cases hee : e' = e
    · rw [hee, hat]
      exact ⟨rfl, fun hpending => by cases hpending⟩
    · rw [hother e' hee]
      exact h.timed e'
  · intro u op l' hu
    rw [htask] at hu
    have hne : op.event ≠ e := by
      intro hee
      have hhas := h.slock_needing hu
      rw [hee, hslock] at hhas
      cases hhas
      rw [hidle] at hu
      cases hu
    rw [hother _ hne]
    exact h.needs u op l' hu
  · intro l' e' he'
    rw [hlist] at he'
    have htl := h.mem l' e' he'
    have hne : e' ≠ e := by
      intro hee
      rw [hee, hall e List.mem_cons_self] at htl
      cases htl
      rw [hnil] at he'
      cases he'
    rw [hother e' hne]
    exact htl
  · exact fun l' => hlist ▸ h.nodup l'
  · intro x hx'
    rw [hpoll] at hx'
    cases hx'
    refine ⟨hlist ▸ hnil, (List.nodup_cons.mp hnodup).2, ?_⟩
    intro e' he'
    have hne : e' ≠ e := by
      intro hee
      exact (List.nodup_cons.mp hnodup).1 (hee ▸ he')
    rw [hother e' hne]
    exact hall e' (List.mem_cons_of_mem e he')

/-- The poll thread goes on with its loops. -/
theorem ListInv.next (h : ListInv s) (hlocks : LockInv s') (htokens : EventTokenInv s') (hs : s.pollNext = some s') :
    ListInv s' := by
  have hsame : ∀ e, (s.event e).se = (s.event e).se ∧ (s.event e).pending = (s.event e).pending ∧
      (s.event e).timeoutList = (s.event e).timeoutList := fun _ => ⟨rfl, rfl, rfl⟩
  simp only [PollEngine.pollNext] at hs
  split at hs
  next => cases hs
  next =>
    cases hs
    exact h.keep hlocks htokens hsame rfl h.needs fun x hx => by cases hx
  next =>
    cases hs
    refine h.keep hlocks htokens hsame rfl (needing_setTask _ ?_ h.needs) fun x hx => by cases hx
    intro op l hop
    cases hop
  next l _ =>
    split at hs
    · cases hs
      refine ⟨hlocks, htokens, h.timed, h.needs, ?_, ?_, ?_⟩
      · intro l' e he
        change e ∈ (if l' = l then [] else s.list l') at he
        by_cases hl : l' = l
        · rw [show (if l' = l then [] else s.list l') = [] from if_pos hl] at he
          cases he
        · rw [show (if l' = l then [] else s.list l') = s.list l' from if_neg hl] at he
          exact h.mem l' e he
      · intro l'
        show (if l' = l then [] else s.list l').Nodup
        split
        · exact List.nodup_nil
        · exact h.nodup l'
      · intro x hx
        cases hx
        exact ⟨if_pos rfl, h.nodup l, fun e he => h.mem l e he⟩
    · cases hs
  next =>
    cases hs
    exact h.keep hlocks htokens hsame rfl h.needs fun x hx => by cases hx
  next hp =>
    split at hs
    · cases hs
      exact h.keep hlocks htokens hsame rfl h.needs fun x hx => by rw [hp]; exact hx
    · cases hs
  next hp =>
    cases hs
    exact h.detach hlocks htokens hp rfl rfl rfl rfl
  next =>
    cases hs
    exact h.keep hlocks htokens hsame rfl h.needs fun x hx => by cases hx
  next =>
    cases hs
    refine h.keep hlocks htokens hsame rfl (needing_setTask _ ?_ h.needs) fun x hx => by cases hx
    intro op l hop
    cases hop

/-- **A step keeps the lists (proved).** -/
theorem pollStep_listInv (h : ListInv s) {m : EngineMove} (hs : pollStep s m = some s') : ListInv s' := by
  have hlocks := pollStep_lockInv h.locks hs
  have htokens := pollStep_eventTokenInv h.tokens hs
  cases m with
  | start i op => exact h.start hlocks htokens hs
  | advance t =>
    obtain ⟨task, ht, hs⟩ := Option.bind_eq_some_iff.mp hs
    exact h.advance ht hlocks htokens hs
  | next =>
    simp only [pollStep] at hs
    split at hs
    next => exact h.next hlocks htokens hs
    next => cases hs
  | fetch | tick =>
    simp only [pollStep] at hs
    split at hs
    next =>
      cases hs
      exact h.keep hlocks htokens (fun _ => ⟨rfl, rfl, rfl⟩) rfl h.needs fun x hx => by cases hx
    next => cases hs
  | free =>
    simp only [pollStep] at hs
    split at hs
    next =>
      cases hs
      exact h.keep hlocks htokens (fun _ => ⟨rfl, rfl, rfl⟩) rfl h.needs fun x hx => hx
    next => cases hs

theorem listInv_new (workers : ℕ) : ListInv (PollEngine.new workers) where
  locks := lockInv_new workers
  tokens := eventTokenInv_new workers
  timed e := ⟨rfl, fun hpending => by cases hpending⟩
  needs t op l ht := by cases ht
  mem l e he := by cases he
  nodup l := List.nodup_nil
  todo x hx := by cases hx

end Lists

end Connio
