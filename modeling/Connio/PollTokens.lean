import Connio.Lib.Transition
import Connio.PollEngine

/-!
# Who sees to a submission

What an operation makes of an event, and the tokens: an event that is linked is in the engine, or one thread is about
to begin its `HandleSocketEvent`, or that has been begun or runs.

* `EngineOp.run_cases` — **PROVED**: what an operation does;
* `TimedEvent.Sound`, `EngineOp.run_sound` — **PROVED**: the token says whether an event is linked and in the engine;
* `EventTokenInv`, `pollStep_eventTokenInv` — **PROVED**: the threads have the tokens that they are about to give on.
-/

namespace Connio

open Connio.Lib

/-! ### What an operation does -/

/-- The poll thread finds an event ready: it is completed with the error that it had, or with another one. -/
theorem socketEventHandle_error (se : SocketEvent) (events : PollEvents) :
    ∃ err, (err = Errno.etimedout → se.error = Errno.etimedout) ∧
      socketEventHandle se events = { se with error := err }.complete := by
  have hother : ∀ (err : Errno) (r : Bool × SocketEvent), err ≠ Errno.etimedout →
      r = { se with error := err }.complete →
      ∃ err, (err = Errno.etimedout → se.error = Errno.etimedout) ∧ r = { se with error := err }.complete :=
    fun err r hne hr => ⟨err, fun he => absurd he hne, hr⟩
  unfold socketEventHandle
  cases events with
  | ready =>
    dsimp only
    split
    · exact ⟨se.error, id, rfl⟩
    · exact ⟨se.error, id, rfl⟩
    · exact hother Errno.einval _ (by decide) rfl
  | hup =>
    dsimp only
    split
    · exact hother Errno.econnreset _ (by decide) rfl
    · exact hother Errno.econnreset _ (by decide) rfl
    · exact hother Errno.einval _ (by decide) rfl
  | nval =>
    dsimp only
    split
    · exact hother Errno.einval _ (by decide) rfl
    · exact hother Errno.einval _ (by decide) rfl
    · exact hother Errno.einval _ (by decide) rfl
  | err =>
    dsimp only
    split
    · exact hother Errno.eio _ (by decide) rfl
    · exact hother Errno.eio _ (by decide) rfl
    · exact hother Errno.einval _ (by decide) rfl

/-- **What an operation does (proved):** nothing; a submission that is refused; a submission; the unlinking; or the
event leaves the engine with an error, `ETIMEDOUT` only when it expires or had that error before. -/
theorem EngineOp.run_cases (op : EngineOp) (t : EngineThread) (ev : TimedEvent) :
    op.run t ev = (false, ev) ∨
    (ev.se.arg = none ∧ ∃ se : SocketEvent, se.arg = none ∧ se.inEngine = false ∧
      op.run t ev = (false, { ev with se := se })) ∨
    (∃ e type cbArg err timeout, op = .submit e type cbArg err timeout ∧ err = 0 ∧ ev.se.arg = none ∧
      op.run t ev = (false, { ev with
        se := { ev.se with arg := some cbArg, type := type, error := 0, inEngine := true }
        submissions := ev.submissions + 1
        pending := ev.pending || timeout.isSome
        timeoutList := ev.timeoutList.or timeout
        token := .engine })) ∨
    (∃ e, op = .handle e ∧ op.run t ev = (false, { ev with se := seUnlinkCe ev.se, token := .none })) ∨
    ∃ err, (err = Errno.etimedout → ev.se.error = Errno.etimedout ∨ ∃ e m, op = .expire e m) ∧
      (ev.se.inEngine = true → ev.pending = true → op.needs ev = ev.timeoutList) ∧
      op.run t ev = ev.leave t { ev.se with error := err }.complete := by
  cases op with
  | submit e type cbArg err timeout =>
    simp only [EngineOp.run, seLinkCe]
    cases harg : ev.se.arg with
    | some cbArg' => exact .inl rfl
    | none =>
      by_cases herr : err = 0
      · subst herr
        exact .inr (.inr (.inl ⟨e, type, cbArg, 0, timeout, rfl, rfl, rfl, rfl⟩))
      · let se : SocketEvent := { ev.se with arg := some cbArg, type := type, error := 0, inEngine := false }
        exact .inr (.inl ⟨rfl, seUnlinkCe se, rfl, rfl, if_pos herr⟩)
  | kill e =>
    have hne : Errno.ecanceled ≠ Errno.etimedout := by decide
    exact .inr (.inr (.inr (.inr ⟨Errno.ecanceled, fun h => absurd h hne, fun _ hp => if_pos hp, rfl⟩)))
  | handle e => exact .inr (.inr (.inr (.inl ⟨e, rfl, rfl⟩)))
  | ready e events =>
    by_cases hin : ev.se.inEngine = true
    · obtain ⟨err, herr, heq⟩ := socketEventHandle_error ev.se events
      refine .inr (.inr (.inr (.inr ⟨err, fun h => .inl (herr h), fun _ hp => if_pos ⟨hin, hp⟩, ?_⟩)))
      simp only [EngineOp.run, if_pos hin, heq]
    · exact .inl (by simp only [EngineOp.run, if_neg hin])
  | expire e m =>
    exact .inr (.inr (.inr (.inr ⟨Errno.etimedout, fun _ => .inr ⟨e, m, rfl⟩, fun _ hp => if_pos hp, rfl⟩)))

/-- An event that is in the engine leaves it. -/
theorem TimedEvent.leave_pos {ev : TimedEvent} (t : EngineThread) (err : Errno) (h : ev.se.inEngine = true) :
    ev.leave t { ev.se with error := err }.complete = (true, { ev with
      se := { ev.se with error := err, inEngine := false }
      pending := false
      timeoutList := if ev.pending then none else ev.timeoutList
      token := .beginning t }) := by
  have hcomplete : { ev.se with error := err }.complete =
      (true, { ev.se with error := err, inEngine := false }) := if_pos h
  rw [hcomplete]
  rfl

/-- An event that is not in the engine keeps its token. -/
theorem TimedEvent.leave_neg {ev : TimedEvent} (t : EngineThread) (err : Errno) (h : ev.se.inEngine = false) :
    ev.leave t { ev.se with error := err }.complete = (false, { ev with
      se := { ev.se with error := err }
      pending := false
      timeoutList := if ev.pending then none else ev.timeoutList }) := by
  have hcomplete : { ev.se with error := err }.complete = (false, { ev.se with error := err }) := if_neg (by simp [h])
  rw [hcomplete]
  rfl

/-! ### The token of an event -/

/-- The token says whether the event is in the engine, and whether it is linked. -/
structure TimedEvent.Sound (ev : TimedEvent) : Prop where
  engine : ev.se.inEngine = true ↔ ev.token = .engine
  linked : ev.se.arg.isSome = true ↔ ev.token ≠ .none

/-- What becomes of the token. -/
theorem EngineOp.run_token (op : EngineOp) (t : EngineThread) {ev : TimedEvent} (h : ev.Sound) :
    ((op.run t ev).1 = true ∧ ev.token = .engine ∧ (op.run t ev).2.token = .beginning t) ∨
    ((op.run t ev).1 = false ∧ ((op.run t ev).2.token = ev.token ∨
      (ev.token = .none ∧ (op.run t ev).2.token = .engine) ∨
      ∃ e, op = .handle e ∧ (op.run t ev).2.token = .none)) := by
  have hnone : ev.se.arg = none → ev.token = .none := by
    intro harg
    by_contra htoken
    have hsome := h.linked.mpr htoken
    rw [harg] at hsome
    cases hsome
  rcases op.run_cases t ev with hr | ⟨_, se, _, _, hr⟩ | ⟨e, type, cbArg, err, timeout, _, _, harg, hr⟩ |
    ⟨e, hop, hr⟩ | ⟨err, _, _, hr⟩
  · rw [hr]
    exact .inr ⟨rfl, .inl rfl⟩
  · rw [hr]
    exact .inr ⟨rfl, .inl rfl⟩
  · rw [hr]
    exact .inr ⟨rfl, .inr (.inl ⟨hnone harg, rfl⟩)⟩
  · rw [hr]
    exact .inr ⟨rfl, .inr (.inr ⟨e, hop, rfl⟩)⟩
  · cases hin : ev.se.inEngine with
    | true =>
      rw [hr, TimedEvent.leave_pos t err hin]
      exact .inl ⟨rfl, h.engine.mp hin, rfl⟩
    | false =>
      rw [hr, TimedEvent.leave_neg t err hin]
      exact .inr ⟨rfl, .inl rfl⟩

/-- **An operation keeps the token right (proved);** `HandleSocketEvent` runs in the thread that has it. -/
theorem EngineOp.run_sound (op : EngineOp) (t : EngineThread) {ev : TimedEvent} (h : ev.Sound)
    (hhandle : ∀ e, op = .handle e → ev.token = .handling t) : (op.run t ev).2.Sound := by
  rcases op.run_cases t ev with hr | ⟨harg, se, hse, hin, hr⟩ | ⟨e, type, cbArg, err, timeout, _, _, harg, hr⟩ |
    ⟨e, hop, hr⟩ | ⟨err, _, _, hr⟩
  · rw [hr]
    exact h
  · rw [hr]
    have htoken : ev.token = .none := by
      by_contra hne
      have hsome := h.linked.mpr hne
      rw [harg] at hsome
      cases hsome
    exact ⟨by simp [hin, htoken], by simp [hse, htoken]⟩
  · rw [hr]
    exact ⟨by simp, by simp⟩
  · rw [hr]
    have hout : ev.se.inEngine ≠ true := by
      intro hin
      have hengine := h.engine.mp hin
      rw [hhandle e hop] at hengine
      cases hengine
    exact ⟨by simp [seUnlinkCe, hout], by simp [seUnlinkCe]⟩
  · cases hin : ev.se.inEngine with
    | true =>
      rw [hr, TimedEvent.leave_pos t err hin]
      have hlinked := h.linked.mpr (by rw [h.engine.mp hin]; simp)
      exact ⟨by simp, by simp [hlinked]⟩
    | false =>
      rw [hr, TimedEvent.leave_neg t err hin]
      exact ⟨by simpa [hin] using h.engine, h.linked⟩

/-! ### The threads and their tokens -/

def EngineOp.handles : EngineOp → Option EventRef
  | handle e => some e
  | _ => none

/-- The event whose `HandleSocketEvent` a thread runs. -/
def LockTask.handles : LockTask → Option EventRef
  | wants op | wantsList op _ | hasList op _ => op.handles
  | releasing _ _ | begins _ => none

/-- The event that a thread has completed, before `AThreadBegin`. -/
def LockTask.completes : LockTask → Option EventRef
  | releasing op true => some op.event
  | begins e => some e
  | _ => none

/-- **The invariant of the tokens.** -/
structure EventTokenInv (s : PollEngine) : Prop where
  sound : ∀ e, (s.event e).Sound
  handling : ∀ t e, (s.task t).bind LockTask.handles = some e → (s.event e).token = .handling t
  beginning : ∀ t e, (s.task t).bind LockTask.completes = some e → (s.event e).token = .beginning t

theorem EngineOp.handles_iff {op : EngineOp} {e : EventRef} : op.handles = some e ↔ op = .handle e := by
  cases op <;> simp [EngineOp.handles]

section Tokens

variable {s s' : PollEngine}

theorem EventTokenInv.congr (h : EventTokenInv s) (hevent : s'.event = s.event) (htask : s'.task = s.task) :
    EventTokenInv s' where
  sound e := hevent ▸ h.sound e
  handling t e ht := hevent ▸ h.handling t e (htask ▸ ht)
  beginning t e ht := hevent ▸ h.beginning t e (htask ▸ ht)

/-- Another task of one thread: the tokens of the other threads stay, and it has its own. -/
theorem EventTokenInv.moved (h : EventTokenInv s) (t : EngineThread) (htask : ∀ u, u ≠ t → s'.task u = s.task u)
    (hsound : ∀ e, (s'.event e).Sound)
    (hother : ∀ u e, u ≠ t → ((s.event e).token = .handling u ∨ (s.event e).token = .beginning u) →
      (s'.event e).token = (s.event e).token)
    (hhandling : ∀ e, (s'.task t).bind LockTask.handles = some e → (s'.event e).token = .handling t)
    (hbeginning : ∀ e, (s'.task t).bind LockTask.completes = some e → (s'.event e).token = .beginning t) :
    EventTokenInv s' where
  sound := hsound
  handling u e hu := by
    by_cases hut : u = t
    · rw [hut] at hu ⊢
      exact hhandling e hu
    · have htoken := h.handling u e (htask u hut ▸ hu)
      rw [hother u e hut (.inl htoken), htoken]
  beginning u e hu := by
    by_cases hut : u = t
    · rw [hut] at hu ⊢
      exact hbeginning e hu
    · have htoken := h.beginning u e (htask u hut ▸ hu)
      rw [hother u e hut (.inr htoken), htoken]

/-- A thread gets on with the tokens that it has, or gives them up. -/
theorem EventTokenInv.keep (h : EventTokenInv s) (t : EngineThread) (task : Option LockTask)
    (hevent : ∀ e, (s'.event e).se = (s.event e).se ∧ (s'.event e).token = (s.event e).token)
    (htask : s'.task = (s.setTask t task).task)
    (hhandles : ∀ e, task.bind LockTask.handles = some e → (s.event e).token = .handling t)
    (hcompletes : ∀ e, task.bind LockTask.completes = some e → (s.event e).token = .beginning t) :
    EventTokenInv s' := by
  have hself : s'.task t = task := by
    rw [htask]
    exact if_pos rfl
  apply h.moved t
  · intro u hu
    rw [htask]
    exact if_neg hu
  · intro e
    obtain ⟨hse, htoken⟩ := hevent e
    exact ⟨by rw [hse, htoken]; exact (h.sound e).engine, by rw [hse, htoken]; exact (h.sound e).linked⟩
  · exact fun u e _ _ => (hevent e).2
  · intro e he
    rw [(hevent e).2]
    exact hhandles e (hself ▸ he)
  · intro e he
    rw [(hevent e).2]
    exact hcompletes e (hself ▸ he)

/-- **An operation keeps the tokens (proved).** -/
theorem EventTokenInv.perform (h : EventTokenInv s) (t : EngineThread) (op : EngineOp)
    (hhandle : ∀ e, op = .handle e → (s.event e).token = .handling t) : EventTokenInv (s.perform t op) := by
  have hself : (s.perform t op).task t = some (.releasing op (op.run t (s.event op.event)).1) := if_pos rfl
  have hevent : ∀ e, e ≠ op.event → (s.perform t op).event e = s.event e := fun e he => if_neg he
  have hat : (s.perform t op).event op.event = (op.run t (s.event op.event)).2 := if_pos rfl
  have hhandle' : ∀ e, op = .handle e → (s.event op.event).token = .handling t := by
    intro e hop
    rw [hop]
    exact hhandle e hop
  have htoken := op.run_token t (h.sound op.event)
  apply h.moved t fun u hu => if_neg hu
  · intro e
    by_cases he : e = op.event
    · rw [he, hat]
      exact op.run_sound t (h.sound op.event) hhandle'
    · rw [hevent e he]
      exact h.sound e
  · intro u e hu htok
    by_cases he : e = op.event
    · rw [he] at htok ⊢
      rw [hat]
      rcases htoken with ⟨_, hengine, _⟩ | ⟨_, hsame | ⟨hnone, _⟩ | ⟨e', hop, _⟩⟩
      · rw [hengine] at htok
        rcases htok with htok | htok <;> cases htok
      · exact hsame
      · rw [hnone] at htok
        rcases htok with htok | htok <;> cases htok
      · -- the thread that unlinks an event has its token
        rw [hhandle' e' hop] at htok
        rcases htok with htok | htok
        · cases htok
          exact absurd rfl hu
        · cases htok
    · rw [hevent e he]
  · intro e he
    rw [hself] at he
    cases he
  · intro e he
    rw [hself] at he
    rcases htoken with ⟨hdone, _, hbegin⟩ | ⟨hdone, _⟩
    · rw [hdone] at he
      cases he
      rw [hat, hbegin]
    · rw [hdone] at he
      cases he

/-- A thread goes on with its operation. -/
theorem EventTokenInv.advance (h : EventTokenInv s) {t : EngineThread} {task : LockTask} (ht : s.task t = some task)
    (hs : s.advance t task = some s') : EventTokenInv s' := by
  have hhandling : ∀ e, task.handles = some e → (s.event e).token = .handling t := by
    intro e he
    apply h.handling t e
    rw [ht]
    exact he
  have hbeginning : ∀ e, task.completes = some e → (s.event e).token = .beginning t := by
    intro e he
    apply h.beginning t e
    rw [ht]
    exact he
  cases task with
  | wants op =>
    simp only [PollEngine.advance] at hs
    split at hs
    · split at hs
      · cases hs
        refine h.keep t _ (fun _ => ⟨rfl, rfl⟩) rfl hhandling ?_
        intro e he
        cases he
      · cases hs
        have hperform := h.perform t op fun e hop => hhandling e (EngineOp.handles_iff.mpr hop)
        exact hperform.congr rfl rfl
    · cases hs
  | wantsList op l =>
    simp only [PollEngine.advance] at hs
    split at hs
    · cases hs
      refine h.keep t _ (fun _ => ⟨rfl, rfl⟩) rfl hhandling ?_
      intro e he
      cases he
    · cases hs
  | hasList op l =>
    cases hs
    have hperform := h.perform t op fun e hop => hhandling e (EngineOp.handles_iff.mpr hop)
    exact hperform.congr rfl rfl
  | releasing op begins =>
    cases hs
    cases begins with
    | false =>
      refine h.keep t none (fun _ => ⟨rfl, rfl⟩) rfl ?_ ?_
      · intro e he
        cases he
      · intro e he
        cases he
    | true =>
      refine h.keep t (some (.begins op.event)) (fun _ => ⟨rfl, rfl⟩) rfl ?_ hbeginning
      intro e he
      cases he
  | begins e =>
    cases hs
    have htoken : (s.event e).token = .beginning t := hbeginning e rfl
    let s' := ((s.use t e).setEvent e { s.event e with token := .begun }).setTask t none
    have hself : s'.task t = none := if_pos rfl
    have hevent : ∀ e', e' ≠ e → s'.event e' = s.event e' := fun e' he' => if_neg he'
    have hat : s'.event e = { s.event e with token := .begun } := if_pos rfl
    show EventTokenInv s'
    refine h.moved t (fun u hu => if_neg hu) ?_ ?_ ?_ ?_
    · intro e'
      by_cases he' : e' = e
      · obtain ⟨hengine, hlinked⟩ := h.sound e
        rw [htoken] at hengine hlinked
        rw [he', hat]
        exact ⟨by simpa using hengine, by simpa using hlinked⟩
      · rw [hevent e' he']
        exact h.sound e'
    · intro u e' hu htok
      by_cases he' : e' = e
      · rw [he', htoken] at htok
        rcases htok with htok | htok
        · cases htok
        · cases htok
          exact absurd rfl hu
      · rw [hevent e' he']
    · intro e' he'
      rw [hself] at he'
      cases he'
    · intro e' he'
      rw [hself] at he'
      cases he'

/-- A worker begins an operation; one that begins `HandleSocketEvent` has its token. -/
theorem EventTokenInv.start (h : EventTokenInv s) {i : ℕ} {op : EngineOp} (hs : pollStep s (.start i op) = some s') :
    EventTokenInv s' := by
  simp only [pollStep] at hs
  split at hs
  next hmay =>
    obtain ⟨_, _, hmay⟩ := hmay
    cases op with
    | submit | kill =>
      cases hs
      refine h.keep (.worker i) (some (.wants _)) (fun _ => ⟨rfl, rfl⟩) rfl ?_ ?_
      · intro e he
        cases he
      · intro e he
        cases he
    | ready | expire => cases hmay
    | handle e =>
      cases hs
      have hbegun : (s.event e).token = .begun := of_decide_eq_true hmay
      let s' := (s.setTask (.worker i) (some (.wants (.handle e)))).setEvent e
        { s.event e with token := .handling (.worker i) }
      have hself : s'.task (.worker i) = some (.wants (.handle e)) := if_pos rfl
      have hevent : ∀ e', e' ≠ e → s'.event e' = s.event e' := fun e' he' => if_neg he'
      have hat : s'.event e = { s.event e with token := .handling (.worker i) } := if_pos rfl
      show EventTokenInv s'
      refine h.moved (.worker i) (fun u hu => if_neg hu) ?_ ?_ ?_ ?_
      · intro e'
        by_cases he' : e' = e
        · obtain ⟨hengine, hlinked⟩ := h.sound e
          rw [hbegun] at hengine hlinked
          rw [he', hat]
          exact ⟨by simpa using hengine, by simpa using hlinked⟩
        · rw [hevent e' he']
          exact h.sound e'
      · intro u e' _ htok
        by_cases he' : e' = e
        · rw [he', hbegun] at htok
          rcases htok with htok | htok <;> cases htok
        · rw [hevent e' he']
      · intro e' he'
        rw [hself] at he'
        cases he'
        rw [hat]
      · intro e' he'
        rw [hself] at he'
        cases he'
  next => cases hs

/-- The loops of the poll thread have no tokens. -/
theorem EventTokenInv.next (h : EventTokenInv s) (ht : s.task .poll = none) (hs : s.pollNext = some s') :
    EventTokenInv s' := by
  have hidle : (fun t => if t = .poll then none else s.task t) = s.task := by
    funext t
    by_cases htp : t = .poll
    · rw [if_pos htp, htp, ht]
    · exact if_neg htp
  have hnone : ∀ (f : LockTask → Option EventRef) (v : EventToken) e,
      (none : Option LockTask).bind f = some e → (s.event e).token = v := by
    intro f v e he
    cases he
  have hready : ∀ (v : EventToken) (op : EngineOp), op.handles = none → ∀ e,
      (some (LockTask.wants op)).bind LockTask.handles = some e → (s.event e).token = v := by
    intro v op hop e he
    rw [show (some (LockTask.wants op)).bind LockTask.handles = op.handles from rfl, hop] at he
    cases he
  simp only [PollEngine.pollNext] at hs
  split at hs
  next => cases hs
  next =>
    cases hs
    exact h.congr rfl rfl
  next e events es _ =>
    cases hs
    refine h.keep .poll (some (.wants (.ready e events))) (fun _ => ⟨rfl, rfl⟩) rfl (hready _ _ rfl) ?_
    intro e' he'
    cases he'
  next =>
    split at hs
    · cases hs
      exact h.congr rfl rfl
    · cases hs
  next =>
    cases hs
    exact h.congr rfl rfl
  next =>
    split at hs
    · cases hs
      exact h.congr rfl rfl
    · cases hs
  next l done e todo _ =>
    cases hs
    refine h.keep .poll none ?_ hidle.symm (hnone _ _) (hnone _ _)
    intro e'
    by_cases he' : e' = e
    · simp [PollEngine.detach, PollEngine.setSlock, he']
    · simp [PollEngine.detach, PollEngine.setSlock, he']
  next =>
    cases hs
    exact h.congr rfl rfl
  next e m es _ =>
    cases hs
    refine h.keep .poll (some (.wants (.expire e m))) (fun _ => ⟨rfl, rfl⟩) rfl (hready _ _ rfl) ?_
    intro e' he'
    cases he'

/-- **A step keeps the tokens (proved).** -/
theorem pollStep_eventTokenInv (h : EventTokenInv s) {m : EngineMove} (hs : pollStep s m = some s') :
    EventTokenInv s' := by
  cases m with
  | start i op => exact h.start hs
  | advance t =>
    obtain ⟨task, ht, hs⟩ := Option.bind_eq_some_iff.mp hs
    exact h.advance ht hs
  | next =>
    simp only [pollStep] at hs
    split at hs
    next ht => exact h.next ht hs
    next => cases hs
  | fetch | tick | free =>
    simp only [pollStep] at hs
    split at hs
    next =>
      cases hs
      exact h.congr rfl rfl
    next => cases hs

theorem eventTokenInv_new (workers : ℕ) : EventTokenInv (PollEngine.new workers) where
  sound e := ⟨by simp [PollEngine.new], by simp [PollEngine.new]⟩
  handling t e ht := by cases ht
  beginning t e ht := by cases ht

end Tokens

end Connio
