import Connio.ListenerBook
import Connio.ListenerRecordsInv
import Mathlib.Data.List.Find

/-!
# Expiring listeners and removing them

A consumer that loads its configuration again expires the listeners of a handle, adds those that it still wants, and
removes what is left: `ConnAExpireListenerEx`, `ConnAAddListenerEx` and `ConnARemoveListenerEx` (`connio.c`), with the
calls in between that write the state of a listener.  One thread calls, and nobody interferes.

* `ListenerTable` — a handle, and what its listeners were added with;
* `ExpiryCall`, `ExpiryCall.run` — the calls in between, with the functions of `ListenerCalls`;
* `startLoop_quiet` — **PROVED**: which records `ConnAStartListenerEx` writes;
* `Stepped`, `run_stepped` — **PROVED**: what a call does to the mark and to the list;
* `MarkAndSweep` — the removal takes what was there, and has not been added again;
* `markAndSweep_iff` — **PROVED**: it does unless a call writes the state of a listener that is not added again.
-/

namespace Connio

open Connio.Lib

/-! ### The table and the calls -/

/-- A handle with what its listeners were added with. -/
structure ListenerTable where
  handle : ListenerHandle
  args : ℕ → ListenerArgs
  /-- the records that have been allocated -/
  added : ℕ

namespace ListenerTable

variable (s : ListenerTable)

/-- `handle->listener` -/
def list : List ℕ := s.handle.managed.list

def record (l : ℕ) : ConnListenerPriv := s.handle.managed.record l

def expired (l : ℕ) : Bool := (s.record l).has connListenerExpired

def independent (l : ℕ) : Bool := (s.record l).has connListenerIndependent

/-- The record that `ConnAAddListenerEx` finds. -/
def found (args : ListenerArgs) : Option ℕ := s.list.find? fun l => s.args l = args

/-- `asyncEnabledHandle`, `notShuttingHandleDown` and `newListenersAllowed` -/
def allowsNew : Bool := s.handle.async && !s.handle.shuttingDown && !s.handle.preventNew

/-- `ConnAAddListenerEx`; `args` is `none` when the address or the callback is NULL. -/
def connAAddListenerEx (args : Option ListenerArgs) (memory : Bool) : ListenerTable :=
  match args with
  | none => s
  | some args =>
    if !s.allowsNew then s
    else
      match s.found args with
      | some l => { s with handle.managed := s.handle.managed.setRecord l (s.record l).unexpire }
      | none =>
        if memory then
          { handle := { s.handle with
              managed := { s.handle.managed.setRecord s.added { state := connListenerFresh } with
                list := s.list ++ [s.added] } }
            args := Function.update s.args s.added args
            added := s.added + 1 }
        else s

/-- What a call leaves; `none` when it does not return. -/
def after : CallOutcome → Option ListenerTable
  | .returned _ _ _ h => some { s with handle := h }
  | .crashed _ => none
  | .waiting => none

/-- `ConnAListenEx` answers `oks` in turn, and nobody interferes. -/
def answers (oks : ℕ → Bool) : List ListenAnswer := (List.range (s.list.length + 1)).map fun i => { ok := oks i }

end ListenerTable

/-- A call between the expiry and the removal, with the handle or with NULL, for one listener or for all. -/
inductive ExpiryCall where
  | add (args : Option ListenerArgs) (memory : Bool)
  | start (named : Bool) (which : ℕ) (only : Option ℕ) (oks : ℕ → Bool)
  | stop (named : Bool) (which : ℕ) (only : Option ℕ)
  | suspend (named : Bool) (only : Option ℕ)
  | resume (named : Bool) (only : Option ℕ)

namespace ExpiryCall

/-- **The call.** -/
def run (s : ListenerTable) : ExpiryCall → Option ListenerTable
  | add args memory => some (s.connAAddListenerEx args memory)
  | start named which only oks => s.after (s.handle.connAStartListenerEx named which only (s.answers oks))
  | stop named which only => s.after (s.handle.connAStopListenerEx named which only)
  | suspend named only => s.after (s.handle.connASuspendListenerEx named only)
  | resume named only => s.after (s.handle.connAResumeListenerEx named only)

/-- The call adds the listener again. -/
def readds (s : ListenerTable) (l : ℕ) : ExpiryCall → Bool
  | add (some args) _ => s.allowsNew && decide (s.found args = some l)
  | _ => false

/-- **The call writes the state of the listener.** -/
def rewrites (s : ListenerTable) (l : ℕ) : ExpiryCall → Bool
  | add _ _ => false
  | start named which only _ =>
    named && s.allowsNew && only.all (· = l) && (!(only.isNone && s.independent l) && (s.record l).conn.isNone &&
      (s.record l).has (ListenerHandle.startable which))
  | stop named which only => (s.handle.check named only).isNone && s.handle.managed.selected which only l
  | suspend named only => (s.handle.check named only).isNone && s.handle.managed.inState connListenerActive only l
  | resume named only => (s.handle.check named only).isNone && s.handle.managed.inState connListenerSuspended only l

/-- The call comes to `newListenersAllowed( NULL )`. -/
def crashes (s : ListenerTable) : ExpiryCall → Bool
  | start named _ only _ => !named && only.isSome && s.handle.async && !s.handle.shuttingDown
  | _ => false

end ExpiryCall

/-- The calls in turn. -/
def runCalls : List ExpiryCall → ListenerTable → Option ListenerTable
  | [], s => some s
  | call :: calls, s => (call.run s).bind (runCalls calls)

/-- Some call writes the state of the listener. -/
def rewritten (l : ℕ) : List ExpiryCall → ListenerTable → Bool
  | [], _ => false
  | call :: calls, s => call.rewrites s l || ((call.run s).map (rewritten l calls)).getD false

/-! ### What is written -/

/-- The flags of the handle and its list are as before. -/
structure SameListeners (h h' : ListenerHandle) : Prop where
  async : h'.async = h.async
  shuttingDown : h'.shuttingDown = h.shuttingDown
  preventNew : h'.preventNew = h.preventNew
  list : h'.managed.list = h.managed.list

theorem SameListeners.refl (h : ListenerHandle) : SameListeners h h := ⟨rfl, rfl, rfl, rfl⟩

theorem SameListeners.trans {h h' h'' : ListenerHandle} (h₁ : SameListeners h h') (h₂ : SameListeners h' h'') :
    SameListeners h h'' :=
  ⟨h₂.async.trans h₁.async, h₂.shuttingDown.trans h₁.shuttingDown, h₂.preventNew.trans h₁.preventNew,
    h₂.list.trans h₁.list⟩

/-- A state of a record that has been written: neither expired nor independent by itself. -/
def StateWritten (r r' : ConnListenerPriv) : Prop :=
  ∃ state, state &&& connListenerExpired = 0 ∧ state &&& connListenerIndependent = 0 ∧ r'.state = (r.setState state).state

theorem StateWritten.expired {r r' : ConnListenerPriv} (h : StateWritten r r') : r'.has connListenerExpired = false := by
  obtain ⟨state, hexpired, _, hstate⟩ := h
  unfold ConnListenerPriv.has
  rw [hstate]
  exact setState_expired hexpired

theorem StateWritten.independent {r r' : ConnListenerPriv} (h : StateWritten r r') :
    r'.has connListenerIndependent = r.has connListenerIndependent := by
  obtain ⟨state, _, hindependent, hstate⟩ := h
  unfold ConnListenerPriv.has
  rw [hstate]
  exact setState_independent hindependent

/-- **The records in `touched` are written, and the others are as before.** -/
structure Writes (h h' : ListenerHandle) (touched : ℕ → Bool) : Prop where
  same : SameListeners h h'
  written : ∀ l, touched l = true → StateWritten (h.managed.record l) (h'.managed.record l)
  kept : ∀ l, touched l = false → h'.managed.record l = h.managed.record l

theorem Writes.congr {h h' : ListenerHandle} {touched touched' : ℕ → Bool} (hw : Writes h h' touched)
    (heq : ∀ l, touched l = touched' l) : Writes h h' touched' :=
  ⟨hw.same, fun l hl => hw.written l ((heq l).trans hl), fun l hl => hw.kept l ((heq l).trans hl)⟩

theorem Writes.nothing (h : ListenerHandle) : Writes h h fun _ => false :=
  ⟨.refl h, fun _ hl => absurd hl Bool.false_ne_true, fun _ _ => rfl⟩

/-! ### The start -/

section Start

variable {h : ListenerHandle} {only : Option ℕ} {which : ℕ}

/-- One listener is started. -/
def ListenerHandle.attempt (h : ListenerHandle) (l : ℕ) (ok : Bool) : ListenerHandle :=
  { h.listen true l ok with managed := (h.listen true l ok).managed.settle l }

/-- **One attempt (proved)** writes the state of its listener. -/
theorem attempt_writes (h : ListenerHandle) (l : ℕ) (ok : Bool) : Writes h (h.attempt l ok) (· = l) := by
  have hne : ∀ l', decide (l' = l) = false → l' ≠ l := fun l' hl => of_decide_eq_false hl
  have hsame : SameListeners h (h.attempt l ok) := by
    refine ⟨by cases ok <;> rfl, by cases ok <;> rfl, by cases ok <;> rfl, ?_⟩
    unfold ListenerHandle.attempt ManagedListeners.settle
    split <;> cases ok <;> rfl
  cases ok with
  | true =>
    refine ⟨hsame, fun l' hl => ?_, fun l' hl => ?_⟩
    · cases of_decide_eq_true hl
      refine ⟨connListenerActive, by decide, by decide, ?_⟩
      simp [ListenerHandle.attempt, ListenerHandle.listen, ManagedListeners.settle, ManagedListeners.setRecord,
        ManagedListeners.setConn, ConnListenerPriv.setState]
    · have hl' := hne l' hl
      simp [ListenerHandle.attempt, ListenerHandle.listen, ManagedListeners.settle, ManagedListeners.setRecord,
        ManagedListeners.setConn, hl']
  | false =>
    refine ⟨hsame, fun l' hl => ?_, fun l' hl => ?_⟩
    · cases of_decide_eq_true hl
      refine ⟨connListenerFailed, by decide, by decide, ?_⟩
      simp [ListenerHandle.attempt, ListenerHandle.listen, ManagedListeners.settle, ManagedListeners.setRecord,
        ConnListenerPriv.setState]
    · have hl' := hne l' hl
      simp [ListenerHandle.attempt, ListenerHandle.listen, ManagedListeners.settle, ManagedListeners.setRecord, hl']

/-- The filter of `ConnAStartListenerEx`. -/
def startsHere (m : ManagedListeners) (only : Option ℕ) (which l : ℕ) : Bool :=
  !(only.isNone && (m.record l).has connListenerIndependent) && (m.record l).conn.isNone && (m.record l).has which

variable (which) in
/-- **The loop (proved)** writes the states of the listeners that its filter takes when it gets to them, where `todo` is
what it has before it. -/
theorem startLoop_quiet (todo : List ℕ) :
    ∀ (h : ListenerHandle) (oks : List Bool) (c : ℕ), todo.Nodup → todo.length ≤ oks.length →
      (∀ (a b : List ℕ) (x : ℕ) (h' : ListenerHandle), SameListeners h h' → todo = a ++ x :: b →
        h'.managed.rest only x = b) →
      ∃ (n : ℕ) (h' : ListenerHandle),
        ListenerHandle.startLoop true only which (oks.map fun ok => { ok := ok }) h (h.managed.pick only which todo) c =
          .returned n 0 [] h' ∧
        Writes h h' fun l => decide (l ∈ todo) && startsHere h.managed only which l := by
  induction todo with
  | nil =>
    intro h oks c _ _ _
    refine ⟨c, h, ?_, (Writes.nothing h).congr fun l => ?_⟩
    · cases oks <;> rfl
    · simp
  | cons x todo ih =>
    intro h oks c hnodup hlength hrest
    obtain ⟨hx, hnodup'⟩ := List.nodup_cons.mp hnodup
    have hpick : h.managed.pick only which (x :: todo) =
        if startsHere h.managed only which x then some x else h.managed.pick only which todo := by
      unfold ManagedListeners.pick
      rw [List.find?_cons]
      show (match startsHere h.managed only which x with | true => _ | false => _) = _
      cases startsHere h.managed only which x <;> rfl
    have hrest' : ∀ h₁, SameListeners h h₁ → ∀ (a b : List ℕ) (y : ℕ) (h' : ListenerHandle), SameListeners h₁ h' →
        todo = a ++ y :: b → h'.managed.rest only y = b := by
      intro h₁ hsame a b y h' hsame' heq
      exact hrest (x :: a) b y h' (hsame.trans hsame') (by rw [heq]; rfl)
    cases hstarts : startsHere h.managed only which x with
    | false =>
      obtain ⟨n, h', hloop, hwrites⟩ := ih h oks c hnodup' (Nat.le_of_succ_le hlength) (hrest' h (.refl h))
      refine ⟨n, h', ?_, hwrites.congr fun l => ?_⟩
      · rw [hpick, hstarts]
        exact hloop
      · by_cases hlx : l = x
        · rw [hlx, hstarts, Bool.and_false, Bool.and_false]
        · simp [hlx]
    | true =>
      cases oks with
      | nil => exact absurd hlength (by simp)
      | cons ok oks =>
        have hattempt := attempt_writes h x ok
        obtain ⟨c', hstep⟩ : ∃ c', ListenerHandle.startLoop true only which ((ok :: oks).map fun ok => { ok := ok }) h
            (some x) c = ListenerHandle.startLoop true only which (oks.map fun ok => { ok := ok }) (h.attempt x ok)
              ((h.attempt x ok).managed.pick only which todo) c' := by
          refine ⟨if ((h.listen true x ok).managed.record x).conn.isSome then c + 1 else c, ?_⟩
          have hbehind : (h.attempt x ok).managed.rest only x = todo := hrest [] todo x _ hattempt.same rfl
          rw [← hbehind]
          rfl
        obtain ⟨n, h', hloop, hwrites⟩ := ih (h.attempt x ok) oks c' hnodup' (by simpa using hlength)
          (hrest' _ hattempt.same)
        refine ⟨n, h', ?_, hattempt.same.trans hwrites.same, fun l hl => ?_, fun l hl => ?_⟩
        · rw [hpick, hstarts, if_pos rfl, hstep]
          exact hloop
        · by_cases hlx : l = x
          · have hkept := hwrites.kept l (by simp [hlx, hx])
            rw [hkept]
            exact hattempt.written l (by simp [hlx])
          · have hsame := hattempt.kept l (by simp [hlx])
            rw [← hsame]
            refine hwrites.written l ?_
            simp only [List.mem_cons, hlx, false_or] at hl
            unfold startsHere at hl ⊢
            rw [hsame]
            exact hl
        · have hlx : l ≠ x := by
            rintro rfl
            simp [hstarts] at hl
          have hsame := hattempt.kept l (by simp [hlx])
          rw [← hsame]
          refine hwrites.kept l ?_
          simp only [List.mem_cons, hlx, false_or] at hl
          unfold startsHere at hl ⊢
          rw [hsame]
          exact hl

end Start

/-! ### One call -/

/-- The list has no record twice, and its records have been allocated. -/
structure ListenerTable.Formed (s : ListenerTable) : Prop where
  nodup : s.list.Nodup
  bounded : ∀ l ∈ s.list, l < s.added

/-- **What a call does:** a mark goes when the call writes the state, or adds the listener again; new listeners come
last, and without it. -/
structure Stepped (s s' : ListenerTable) (call : ExpiryCall) : Prop where
  allowsNew : s'.allowsNew = s.allowsNew
  async : s'.handle.async = s.handle.async
  shuttingDown : s'.handle.shuttingDown = s.handle.shuttingDown
  args : ∀ l ∈ s.list, s'.args l = s.args l
  new : ∃ new, s'.list = s.list ++ new ∧ ∀ l ∈ new, s'.expired l = false
  expired : ∀ l ∈ s.list, s'.expired l = (s.expired l && !call.rewrites s l && !call.readds s l)
  independent : ∀ l ∈ s.list, s'.independent l = s.independent l
  formed : s'.Formed

section Step

variable {s s' : ListenerTable} {call : ExpiryCall} {h' : ListenerHandle} {touched : ℕ → Bool}

theorem expired_of_record {l : ℕ} {r : ConnListenerPriv} (h : s'.handle.managed.record l = r) :
    s'.expired l = r.has connListenerExpired := congrArg (ConnListenerPriv.has · connListenerExpired) h

theorem independent_of_record {l : ℕ} {r : ConnListenerPriv} (h : s'.handle.managed.record l = r) :
    s'.independent l = r.has connListenerIndependent := congrArg (ConnListenerPriv.has · connListenerIndependent) h

variable (touched) in
/-- A call that writes records, and does not add any. -/
theorem Writes.stepped (hs : s.Formed) (hw : Writes s.handle h' touched)
    (htouched : ∀ l ∈ s.list, touched l = call.rewrites s l) (hreadds : ∀ l, call.readds s l = false) :
    Stepped s { s with handle := h' } call := by
  have hlist : ListenerTable.list { s with handle := h' } = s.list := hw.same.list
  refine ⟨?_, hw.same.async, hw.same.shuttingDown, fun _ _ => rfl, ⟨[], ?_, fun l hl => by cases hl⟩, fun l hl => ?_,
    fun l hl => ?_, ?_, fun l hl => ?_⟩
  · unfold ListenerTable.allowsNew
    rw [hw.same.async, hw.same.shuttingDown, hw.same.preventNew]
  · rw [hlist, List.append_nil]
  · rw [hreadds, ← htouched l hl]
    cases ht : touched l with
    | true =>
      rw [Bool.not_true, Bool.and_false, Bool.false_and]
      exact (hw.written l ht).expired
    | false =>
      rw [Bool.not_false, Bool.and_true, Bool.and_true]
      exact expired_of_record (hw.kept l ht)
  · cases ht : touched l with
    | true => exact (hw.written l ht).independent
    | false => exact independent_of_record (hw.kept l ht)
  · rw [hlist]
    exact hs.nodup
  · exact hs.bounded l (hlist ▸ hl)

/-- A call that does nothing. -/
theorem Stepped.nothing (hs : s.Formed) (hrewrites : ∀ l, call.rewrites s l = false)
    (hreadds : ∀ l, call.readds s l = false) : Stepped s s call :=
  (Writes.nothing s.handle).stepped _ hs (fun l _ => (hrewrites l).symm) hreadds

/-- The listener is in the list: its mark is taken away. -/
theorem found_stepped (hs : s.Formed) {x : ℕ} (hrewrites : ∀ l, call.rewrites s l = false)
    (hreadds : ∀ l, call.readds s l = decide (some x = some l)) :
    Stepped s { s with handle.managed := s.handle.managed.setRecord x (s.record x).unexpire } call := by
  have hself : (s.handle.managed.setRecord x (s.record x).unexpire).record x = (s.record x).unexpire := setRecord_self ..
  have hother : ∀ l, l ≠ x → (s.handle.managed.setRecord x (s.record x).unexpire).record l = s.record l :=
    fun l hlx => setRecord_of_ne _ hlx _
  refine ⟨rfl, rfl, rfl, fun _ _ => rfl, ⟨[], (List.append_nil _).symm, fun l hl => by cases hl⟩, fun l hl => ?_,
    fun l hl => ?_, hs.nodup, hs.bounded⟩
  · rw [hrewrites, hreadds, Bool.not_false, Bool.and_true]
    by_cases hlx : l = x
    · subst hlx
      rw [decide_eq_true rfl, Bool.not_true, Bool.and_false]
      exact (expired_of_record hself).trans unexpire_expired
    · have hsome : ¬ some x = some l := fun heq => hlx (Option.some.inj heq).symm
      rw [decide_eq_false hsome, Bool.not_false, Bool.and_true]
      exact expired_of_record (hother l hlx)
  · by_cases hlx : l = x
    · subst hlx
      exact (independent_of_record hself).trans unexpire_independent
    · exact independent_of_record (hother l hlx)

/-- The listener is not in the list: it is added at the end, without a mark. -/
theorem added_stepped (hs : s.Formed) {args : ListenerArgs} (hallows : s.allowsNew = true) (hfound : s.found args = none)
    (hrewrites : ∀ l, call.rewrites s l = false) (hreadds : ∀ l, call.readds s l = false) :
    Stepped s (s.connAAddListenerEx (some args) true) call := by
  simp only [ListenerTable.connAAddListenerEx, hallows, hfound, Bool.not_true, Bool.false_eq_true, if_false, if_true]
  have hself : (s.handle.managed.setRecord s.added { state := connListenerFresh }).record s.added =
      { state := connListenerFresh } := setRecord_self ..
  have hne : ∀ l ∈ s.list, l ≠ s.added := fun l hl => Nat.ne_of_lt (hs.bounded l hl)
  have hother : ∀ l ∈ s.list,
      (s.handle.managed.setRecord s.added { state := connListenerFresh }).record l = s.record l :=
    fun l hl => setRecord_of_ne _ (hne l hl) _
  refine ⟨rfl, rfl, rfl, fun l hl => Function.update_of_ne (hne l hl) _ _, ⟨[s.added], rfl, fun l hl => ?_⟩,
    fun l hl => ?_, fun l hl => ?_, ?_, fun l hl => ?_⟩
  · cases List.mem_singleton.mp hl
    exact (expired_of_record hself).trans (by decide)
  · rw [hrewrites, hreadds, Bool.not_false, Bool.and_true, Bool.and_true]
    exact expired_of_record (hother l hl)
  · exact independent_of_record (hother l hl)
  · refine List.nodup_append.mpr ⟨hs.nodup, List.nodup_singleton _, fun l hl l' hl' => ?_⟩
    rw [List.mem_singleton.mp hl']
    exact hne l hl
  · rcases List.mem_append.mp hl with hl | hl
    · exact Nat.lt_succ_of_lt (hs.bounded l hl)
    · rw [List.mem_singleton.mp hl]
      exact Nat.lt_succ_self _

/-- **`ConnAAddListenerEx` (proved)** takes the mark away, adds a listener without it, or does nothing. -/
theorem add_stepped (hs : s.Formed) (args : Option ListenerArgs) (memory : Bool) :
    Stepped s (s.connAAddListenerEx args memory) (.add args memory) := by
  cases args with
  | none => exact .nothing hs (fun _ => rfl) fun _ => rfl
  | some args =>
    cases hallows : s.allowsNew with
    | false =>
      simp only [ListenerTable.connAAddListenerEx, hallows, Bool.not_false, if_true]
      refine .nothing hs (fun _ => rfl) fun l => ?_
      simp only [ExpiryCall.readds, hallows, Bool.false_and]
    | true =>
      have hreadds : ∀ l, (ExpiryCall.add (some args) memory).readds s l = decide (s.found args = some l) := by
        intro l
        simp only [ExpiryCall.readds, hallows, Bool.true_and]
      cases hfound : s.found args with
      | some x =>
        simp only [ListenerTable.connAAddListenerEx, hallows, hfound, Bool.not_true, Bool.false_eq_true, if_false]
        exact found_stepped hs (fun _ => rfl) fun l => by rw [hreadds, hfound]
      | none =>
        have hnone : ∀ l, (ExpiryCall.add (some args) memory).readds s l = false := by
          intro l
          rw [hreadds, hfound]
          rfl
        cases memory with
        | false =>
          simp only [ListenerTable.connAAddListenerEx, hallows, hfound, Bool.not_true, Bool.false_eq_true, if_false]
          exact .nothing hs (fun _ => rfl) hnone
        | true => exact added_stepped hs hallows hfound (fun _ => rfl) hnone

/-- **`ConnAStartListenerEx` (proved)** writes the states of the listeners that it starts. -/
theorem start_stepped (hs : s.Formed) (named : Bool) (which : ℕ) (only : Option ℕ) (oks : ℕ → Bool)
    (hnot : (ExpiryCall.start named which only oks).crashes s = false) :
    ∃ s', (ExpiryCall.start named which only oks).run s = some s' ∧ Stepped s s' (.start named which only oks) := by
  have hreadds : ∀ l, (ExpiryCall.start named which only oks).readds s l = false := fun _ => rfl
  simp only [ExpiryCall.run, ListenerHandle.connAStartListenerEx]
  by_cases hgoes : named = true ∧ s.allowsNew = true
  · obtain ⟨rfl, hallows⟩ := hgoes
    have hallows' := hallows
    simp only [ListenerTable.allowsNew, Bool.and_eq_true, Bool.not_eq_true'] at hallows'
    obtain ⟨⟨hasync, hdown⟩, hprevent⟩ := hallows'
    have hcheck : s.handle.check true only = none := by
      simp [ListenerHandle.check, hasync]
    simp only [hcheck, hdown, hprevent, Bool.not_true, Bool.false_eq_true, if_false]
    -- what the loop has before it
    have hanswers : s.answers oks = ((List.range (s.list.length + 1)).map oks).map fun ok => { ok := ok } := by
      simp [ListenerTable.answers]
    have hnodup : (s.handle.managed.candidates only).Nodup := by
      cases only with
      | none => exact hs.nodup
      | some x => exact List.nodup_singleton x
    have hlength : (s.handle.managed.candidates only).length ≤ ((List.range (s.list.length + 1)).map oks).length := by
      rw [List.length_map, List.length_range]
      cases only with
      | none => exact Nat.le_succ _
      | some x => exact Nat.succ_le_succ (Nat.zero_le _)
    have hrest : ∀ (a b : List ℕ) (x : ℕ) (h' : ListenerHandle), SameListeners s.handle h' →
        s.handle.managed.candidates only = a ++ x :: b → h'.managed.rest only x = b := by
      intro a b x h' hsame heq
      cases only with
      | none =>
        have heq' : s.list = a ++ x :: b := heq
        have hnotin : ∀ y ∈ a, (y ≠ x) := fun y hy hyx => by
          have hnd := hs.nodup
          rw [heq'] at hnd
          exact (List.nodup_append.mp hnd).2.2 y hy x List.mem_cons_self hyx
        show (h'.managed.list.dropWhile (· ≠ x)).tail = b
        rw [hsame.list, show s.handle.managed.list = a ++ x :: b from heq,
          List.dropWhile_append_of_pos fun y hy => decide_eq_true (hnotin y hy)]
        simp
      | some y =>
        have heq' : [y] = a ++ x :: b := heq
        have hlen := congrArg List.length heq'
        simp only [List.length_cons, List.length_nil, List.length_append] at hlen
        exact (List.eq_nil_of_length_eq_zero (by omega)).symm
    obtain ⟨n, h', hloop, hwrites⟩ := startLoop_quiet (ListenerHandle.startable which) _ s.handle
      ((List.range (s.list.length + 1)).map oks) 0 hnodup hlength hrest
    rw [hanswers, hloop]
    refine ⟨_, rfl, hwrites.stepped _ hs (fun l hl => ?_) hreadds⟩
    have hmem : decide (l ∈ s.handle.managed.candidates only) = only.all (· = l) := by
      cases only with
      | none => exact decide_eq_true hl
      | some x => simp [ManagedListeners.candidates, eq_comm]
    simp only [ExpiryCall.rewrites, hallows, Bool.true_and, hmem]
    rfl
  · have hrewrites : ∀ l, (ExpiryCall.start named which only oks).rewrites s l = false := by
      intro l
      simp only [ExpiryCall.rewrites]
      cases hnamed : named with
      | false => rfl
      | true =>
        cases hallows : s.allowsNew with
        | false => rfl
        | true => exact absurd ⟨hnamed, hallows⟩ hgoes
    refine ⟨s, ?_, .nothing hs hrewrites hreadds⟩
    cases hcheck : s.handle.check named only with
    | some errno => rfl
    | none =>
      simp only []
      cases hdown : s.handle.shuttingDown with
      | true => rfl
      | false =>
        have hasync : s.handle.async = true := by
          cases hasync : s.handle.async with
          | true => rfl
          | false =>
            simp only [ListenerHandle.check, hasync] at hcheck
            split at hcheck <;> cases hcheck
        cases hnamed : named with
        | false =>
          simp only [ExpiryCall.crashes, hnamed, hasync, hdown, Bool.not_false, Bool.true_and, Bool.and_true] at hnot
          simp [ListenerHandle.check, hnamed, Option.isSome_eq_false_iff.mp hnot] at hcheck
        | true =>
          have hprevent : s.handle.preventNew = true := by
            by_contra hne
            refine hgoes ⟨hnamed, ?_⟩
            simp [ListenerTable.allowsNew, hasync, hdown, Bool.eq_false_iff.mpr hne]
          simp only [hprevent, Bool.not_true, Bool.false_eq_true, if_false, if_true]
          rfl

theorem listed_and {list : List ℕ} {l : ℕ} {b : Bool} : (decide (l ∈ list) && b) = true ↔ l ∈ list ∧ b = true := by
  rw [Bool.and_eq_true, decide_eq_true_iff]

theorem not_listed_and {list : List ℕ} {l : ℕ} {b : Bool} (h : (decide (l ∈ list) && b) = false) :
    ¬ (l ∈ list ∧ b = true) := by
  rw [← listed_and, h]
  exact Bool.false_ne_true

/-- **`ConnAStopListenerEx` (proved)** writes the states of the listeners that it selects. -/
theorem stop_stepped (hs : s.Formed) (named : Bool) (which : ℕ) (only : Option ℕ) :
    ∃ s', (ExpiryCall.stop named which only).run s = some s' ∧ Stepped s s' (.stop named which only) := by
  simp only [ExpiryCall.run, ListenerHandle.connAStopListenerEx]
  cases hcheck : s.handle.check named only with
  | some errno =>
    refine ⟨s, rfl, .nothing hs (fun l => ?_) fun _ => rfl⟩
    simp only [ExpiryCall.rewrites, hcheck, Option.isNone_some, Bool.false_and]
  | none =>
    refine ⟨_, rfl, Writes.stepped (fun l => decide (l ∈ s.list) && s.handle.managed.selected which only l) hs
      ⟨⟨rfl, rfl, rfl, rfl⟩, fun l hl => ?_, fun l hl => ?_⟩ (fun l hl => ?_) fun _ => rfl⟩
    · exact ⟨connListenerStopped, by decide, by decide, congrArg ConnListenerPriv.state (if_pos (listed_and.mp hl))⟩
    · exact if_neg (not_listed_and hl)
    · simp only [ExpiryCall.rewrites, hcheck, Option.isNone_none, Bool.true_and, decide_eq_true hl]

/-- **`ConnASuspendListenerEx` and `ConnAResumeListenerEx` (proved)** write the states of the listeners that they
select. -/
theorem switch_stepped (hs : s.Formed) (named : Bool) (only : Option ℕ) (flag flag' : ℕ) (f : ℕ → ListenerSignal)
    (hexpired : flag' &&& connListenerExpired = 0) (hindependent : flag' &&& connListenerIndependent = 0)
    (hrewrites : ∀ l, call.rewrites s l = ((s.handle.check named only).isNone && s.handle.managed.inState flag only l))
    (hreadds : ∀ l, call.readds s l = false) :
    ∃ s', s.after (s.handle.switch named only flag flag' f) = some s' ∧ Stepped s s' call := by
  unfold ListenerHandle.switch
  cases hcheck : s.handle.check named only with
  | some errno =>
    refine ⟨s, rfl, .nothing hs (fun l => ?_) hreadds⟩
    rw [hrewrites, hcheck]
    rfl
  | none =>
    refine ⟨_, rfl, Writes.stepped (fun l => decide (l ∈ s.list) && s.handle.managed.inState flag only l) hs
      ⟨⟨rfl, rfl, rfl, rfl⟩, fun l hl => ?_, fun l hl => ?_⟩ (fun l hl => ?_) hreadds⟩
    · exact ⟨flag', hexpired, hindependent,
        congrArg ConnListenerPriv.state (if_pos (List.mem_filter.mpr (listed_and.mp hl)))⟩
    · exact if_neg fun hmem => not_listed_and hl (List.mem_filter.mp hmem)
    · rw [hrewrites, hcheck, decide_eq_true hl]
      rfl

/-- **A call (proved)** that does not use NULL returns, and does what it does to the marks and to the list. -/
theorem run_stepped (hs : s.Formed) (call : ExpiryCall) (hnot : call.crashes s = false) :
    ∃ s', call.run s = some s' ∧ Stepped s s' call := by
  cases call with
  | add args memory => exact ⟨_, rfl, add_stepped hs args memory⟩
  | start named which only oks => exact start_stepped hs named which only oks hnot
  | stop named which only => exact stop_stepped hs named which only
  | suspend named only =>
    exact switch_stepped hs named only _ _ _ (by decide) (by decide) (fun _ => rfl) fun _ => rfl
  | resume named only =>
    exact switch_stepped hs named only _ _ _ (by decide) (by decide) (fun _ => rfl) fun _ => rfl

end Step

/-! ### All calls -/

/-- What `ConnAAddListenerEx` finds does not change. -/
theorem Stepped.readds {s s' : ListenerTable} {call call' : ExpiryCall} (h : Stepped s s' call') {l : ℕ}
    (hl : l ∈ s.list) : call.readds s' l = call.readds s l := by
  obtain ⟨new, hlist, _⟩ := h.new
  cases call with
  | add args memory =>
    cases args with
    | none => rfl
    | some args =>
      simp only [ExpiryCall.readds, h.allowsNew]
      refine congrArg (s.allowsNew && ·) (decide_eq_decide.mpr ?_)
      have hfound : s'.found args = (s.found args).or (new.find? fun l => s'.args l = args) := by
        unfold ListenerTable.found
        rw [hlist, List.find?_append, List.find?_congr fun x hx => by rw [h.args x hx]]
      rw [hfound]
      cases hold : s.found args with
      | some x => exact Iff.rfl
      | none =>
        refine iff_of_false (fun hnew => ?_) (Option.some_ne_none l).symm
        have hmem : l ∈ new := List.mem_of_find?_eq_some hnew
        have hnodup := h.formed.nodup
        rw [hlist] at hnodup
        exact (List.nodup_append.mp hnodup).2.2 l hl l hmem rfl
  | _ => rfl

theorem Stepped.crashes {s s' : ListenerTable} {call call' : ExpiryCall} (h : Stepped s s' call') :
    call.crashes s' = call.crashes s := by
  cases call with
  | start named which only oks => simp only [ExpiryCall.crashes, h.async, h.shuttingDown]
  | _ => rfl

/-- **The calls of a run (proved):** all of them return, unless one uses NULL; the marks that are left are those of
listeners that no call writes or adds again. -/
theorem runCalls_spec (calls : List ExpiryCall) : ∀ s : ListenerTable, s.Formed →
    (calls.any (·.crashes s) = false →
      ∃ s', runCalls calls s = some s' ∧ s'.handle.async = s.handle.async ∧
        (∃ new, s'.list = s.list ++ new ∧ ∀ l ∈ new, l ∉ s.list ∧ s'.expired l = false) ∧
        (∀ l ∈ s.list, s'.independent l = s.independent l ∧
          s'.expired l = (s.expired l && !rewritten l calls s && !calls.any (·.readds s l)))) ∧
      (calls.any (·.crashes s) = true → runCalls calls s = none) := by
  induction calls with
  | nil =>
    intro s hs
    refine ⟨fun _ => ⟨s, rfl, rfl, ⟨[], (List.append_nil _).symm, fun l hl => by cases hl⟩, fun l hl => ⟨rfl, ?_⟩⟩,
      fun h => absurd h Bool.false_ne_true⟩
    simp [rewritten]
  | cons call calls ih =>
    intro s hs
    cases hcrash : call.crashes s with
    | true =>
      refine ⟨fun h => absurd h (by simp [hcrash]), fun _ => ?_⟩
      have hnone : call.run s = none := by
        cases call with
        | start named which only oks =>
          simp only [ExpiryCall.crashes, Bool.and_eq_true, Bool.not_eq_true'] at hcrash
          obtain ⟨⟨⟨rfl, honly⟩, hasync⟩, hdown⟩ := hcrash
          obtain ⟨l, rfl⟩ := Option.isSome_iff_exists.mp honly
          simp only [ExpiryCall.run, start_unnamed s.handle which l (s.answers oks) ⟨hasync, hdown⟩]
          rfl
        | _ => cases hcrash
      simp [runCalls, hnone]
    | false =>
      obtain ⟨s₁, hrun, hstep⟩ := run_stepped hs call hcrash
      obtain ⟨new, hlist, hnew⟩ := hstep.new
      have hsub : ∀ l ∈ s.list, l ∈ s₁.list := fun l hl => hlist ▸ List.mem_append_left new hl
      have hany : calls.any (·.crashes s₁) = calls.any (·.crashes s) := by
        simp only [hstep.crashes]
      obtain ⟨hgoes, hends⟩ := ih s₁ hstep.formed
      rw [hany] at hgoes hends
      refine ⟨fun h => ?_, fun h => ?_⟩
      · obtain ⟨s', hrun', hasync, ⟨new', hlist', hnew'⟩, hold⟩ := hgoes (by simpa [hcrash] using h)
        refine ⟨s', ?_, hasync.trans hstep.async, ⟨new ++ new', ?_, fun l hl => ?_⟩, fun l hl => ?_⟩
        · rw [runCalls, hrun]
          exact hrun'
        · rw [hlist', hlist, List.append_assoc]
        · rcases List.mem_append.mp hl with hl | hl
          · have hin : l ∈ s₁.list := hlist ▸ List.mem_append_right s.list hl
            have hnodup := hstep.formed.nodup
            rw [hlist] at hnodup
            refine ⟨fun hmem => (List.nodup_append.mp hnodup).2.2 l hmem l hl rfl, ?_⟩
            rw [(hold l hin).2, hnew l hl, Bool.false_and, Bool.false_and]
          · exact ⟨fun hmem => (hnew' l hl).1 (hsub l hmem), (hnew' l hl).2⟩
        · obtain ⟨hindependent, hexpired⟩ := hold l (hsub l hl)
          refine ⟨hindependent.trans (hstep.independent l hl), ?_⟩
          have hreadds : calls.any (·.readds s₁ l) = calls.any (·.readds s l) := by
            simp only [hstep.readds hl]
          rw [hexpired, hstep.expired l hl, hreadds, List.any_cons, rewritten, hrun]
          simp only [Option.map_some, Option.getD_some, Bool.not_or]
          simp only [Bool.and_assoc, Bool.and_left_comm]
      · have hends' := hends (by simpa [hcrash] using h)
        rw [runCalls, hrun]
        exact hends'

/-! ### The expiry and the removal -/

namespace ListenerTable

variable (s : ListenerTable)

/-- `ConnAExpireListenerEx` for all listeners. -/
def expireAll : ListenerTable :=
  if s.handle.async then { s with handle.managed := s.handle.managed.expire none } else s

theorem after_expire : s.after (s.handle.connAExpireListenerEx true 0 none) = some s.expireAll := by
  unfold ListenerHandle.connAExpireListenerEx expireAll
  cases hasync : s.handle.async with
  | true => simp [ListenerHandle.check, hasync, after]
  | false => simp [ListenerHandle.check, hasync, after]

/-- **The removal takes the listeners in `gone`:** they are stopped, and freed unless they have a conn, which is shut
down; the others are as before. -/
def RemovesExactly (gone : ℕ → Bool) : Prop :=
  ∃ value errno h', s.handle.connARemoveListenerEx true connListenerExpired none false = .returned value errno [] h' ∧
    (s.handle.async = true → value = (s.list.filter gone).length) ∧
    ∀ l ∈ s.list,
      (gone l = true → (h'.managed.record l).state = connListenerStopped ∧
        ((s.record l).conn = none → l ∉ h'.managed.list) ∧
        ∀ c, (s.record l).conn = some c → .shutdown c ∈ h'.signals) ∧
      (gone l = false → l ∈ h'.managed.list ∧ h'.managed.record l = s.record l)

/-- The listeners that were there at the expiry, are not independent, and are not added again. -/
def stale (calls : List ExpiryCall) (l : ℕ) : Bool :=
  decide (l ∈ s.list) && !s.independent l && !calls.any (·.readds s l)

end ListenerTable

/-- A handle that a consumer loads its configuration for. -/
structure Reload where
  table : ListenerTable
  formed : table.Formed
  /-- only an asynchronous handle has listeners -/
  enabled : table.list ≠ [] → table.handle.async = true

/-- **Expire, add again, remove is mark and sweep:** the calls return, and the removal takes what is stale. -/
def MarkAndSweep (r : Reload) (calls : List ExpiryCall) : Prop :=
  ∃ s₁ s₂, r.table.after (r.table.handle.connAExpireListenerEx true 0 none) = some s₁ ∧ runCalls calls s₁ = some s₂ ∧
    s₂.RemovesExactly (r.table.stale calls)

/-- **No call uses NULL, and none writes the state of a listener that is stale.** -/
structure MarksKept (r : Reload) (calls : List ExpiryCall) : Prop where
  returns : calls.any (·.crashes r.table) = false
  kept : ∀ l, r.table.stale calls l = true → rewritten l calls r.table.expireAll = false

section Sweep

variable {s : ListenerTable} {calls : List ExpiryCall}

/-- **The expiry (proved)** marks every listener that is not independent. -/
theorem expireAll_spec (hasync : s.handle.async = true) {l : ℕ} (hl : l ∈ s.list) :
    s.expireAll.independent l = s.independent l ∧ (s.independent l = false → s.expireAll.expired l = true) := by
  have hexpire : s.expireAll = { s with handle.managed := s.handle.managed.expire none } := if_pos hasync
  rw [hexpire]
  by_cases hsel : l ∈ s.handle.managed.list.filter (s.handle.managed.unexpired none)
  · have hrecord : (s.handle.managed.expire none).record l =
        { s.record l with state := (s.record l).state ||| connListenerExpired } := if_pos hsel
    exact ⟨(independent_of_record hrecord).trans expire_independent,
      fun _ => (expired_of_record hrecord).trans expire_expired⟩
  · have hrecord : (s.handle.managed.expire none).record l = s.record l := if_neg hsel
    refine ⟨independent_of_record hrecord, fun hindependent => ?_⟩
    refine (expired_of_record hrecord).trans ?_
    by_contra hexpired
    have hindependent' : (s.handle.managed.record l).has connListenerIndependent = false := hindependent
    have hexpired' : (s.handle.managed.record l).has connListenerExpired = false := Bool.eq_false_iff.mpr hexpired
    refine hsel (List.mem_filter.mpr ⟨hl, ?_⟩)
    simp [ManagedListeners.unexpired, hindependent', hexpired']

theorem stopped_expired (c : Option ℕ) :
    (⟨c, connListenerStopped⟩ : ConnListenerPriv).has connListenerExpired = false := by
  simp [ConnListenerPriv.has, connListenerStopped, connListenerExpired]

theorem selected_expired (s : ListenerTable) (l : ℕ) :
    s.handle.managed.selected connListenerExpired none l = (!s.independent l && s.expired l) := by
  have hne : connListenerExpired ≠ 0 := by decide
  simp [ManagedListeners.selected, ListenerTable.independent, ListenerTable.expired, ListenerTable.record, hne]

/-- **The removal (proved)** takes exactly the listeners that are marked, and not independent. -/
theorem removesExactly_iff (hasync : s.handle.async = true) (gone : ℕ → Bool) :
    s.RemovesExactly gone ↔ ∀ l ∈ s.list, gone l = (!s.independent l && s.expired l) := by
  have hcheck : s.handle.check true none = none := by
    simp [ListenerHandle.check, hasync]
  obtain ⟨sel, hsel⟩ : ∃ sel, sel = s.handle.managed.selected connListenerExpired none := ⟨_, rfl⟩
  have hsel' : ∀ l, sel l = (!s.independent l && s.expired l) := fun l => hsel ▸ selected_expired s l
  have hrecord : ∀ l ∈ s.list, (s.handle.managed.remove connListenerExpired none false).record l =
      if sel l then { s.record l with state := connListenerStopped } else s.record l := by
    intro l hl
    have hl' : l ∈ s.handle.managed.list := hl
    rw [hsel]
    simp only [ManagedListeners.remove, hl', true_and]
    rfl
  have hlist : ∀ l, l ∈ (s.handle.managed.remove connListenerExpired none false).list ↔
      l ∈ s.list ∧ ¬ (sel l = true ∧ (s.record l).conn = none) := by
    intro l
    rw [hsel]
    simp only [ManagedListeners.remove, List.mem_filter, ManagedListeners.unused, Bool.not_eq_true',
      Bool.eq_false_iff, ne_eq, Bool.and_eq_true, Option.isNone_iff_eq_none]
    rfl
  have hcall : s.handle.connARemoveListenerEx true connListenerExpired none false =
      .returned ((s.list.filter sel).length : ℕ) 0 [] { s.handle.signal .shutdown (s.list.filter sel) with
        managed := s.handle.managed.remove connListenerExpired none false } := by
    unfold ListenerHandle.connARemoveListenerEx
    rw [hcheck, hsel]
    rfl
  unfold ListenerTable.RemovesExactly
  rw [hcall]
  simp only [← hsel']
  constructor
  · rintro ⟨value, errno, h', houtcome, hvalue, hall⟩
    cases houtcome
    have hcount := hvalue hasync
    -- what is marked is gone, since its state has changed
    have hsub : ∀ l ∈ s.list, sel l = true → gone l = true := by
      intro l hl hs
      by_contra hgone
      have hsame := ((hall l hl).2 (Bool.eq_false_iff.mpr hgone)).2
      rw [hrecord l hl, if_pos hs] at hsame
      have hexpired : s.expired l = true := by
        have hboth := (hsel' l).symm.trans hs
        simp only [Bool.and_eq_true] at hboth
        exact hboth.2
      unfold ListenerTable.expired at hexpired
      rw [← hsame, stopped_expired] at hexpired
      exact Bool.false_ne_true hexpired
    have hsublist : List.Sublist (s.list.filter sel) (s.list.filter gone) := by
      have hfilter : s.list.filter sel = (s.list.filter gone).filter sel := by
        rw [List.filter_filter]
        refine List.filter_congr fun l hl => ?_
        cases hs : sel l with
        | true => rw [hsub l hl hs, Bool.and_true]
        | false => rw [Bool.false_and]
      rw [hfilter]
      exact List.filter_sublist
    have heq := hsublist.eq_of_length (Int.ofNat_inj.mp hcount)
    intro l hl
    cases hgone : gone l with
    | false =>
      cases hs : sel l with
      | false => rfl
      | true => exact absurd ((hsub l hl hs).symm.trans hgone) (by decide)
    | true =>
      have hmem : l ∈ s.list.filter sel := heq ▸ List.mem_filter.mpr ⟨hl, hgone⟩
      exact (List.mem_filter.mp hmem).2.symm
  · intro hall
    refine ⟨_, _, _, rfl, fun _ => ?_,
      fun l hl => ⟨fun hgone => ⟨?_, fun hconn hmem => ?_, fun c hc => ?_⟩, fun hgone => ?_⟩⟩
    · rw [List.filter_congr hall]
    · rw [hall l hl] at hgone
      rw [hrecord l hl, if_pos hgone]
    · exact ((hlist l).mp hmem).2 ⟨(hall l hl).symm.trans hgone, hconn⟩
    · refine List.mem_append_right _ (List.mem_map.mpr ⟨c, List.mem_filterMap.mpr ⟨l, ?_, hc⟩, rfl⟩)
      exact List.mem_filter.mpr ⟨hl, (hall l hl).symm.trans hgone⟩
    · rw [hall l hl] at hgone
      refine ⟨(hlist l).mpr ⟨hl, fun hboth => ?_⟩, ?_⟩
      · rw [hgone] at hboth
        exact Bool.false_ne_true hboth.1
      · rw [hrecord l hl, hgone]
        rfl

theorem expireAll_fields (s : ListenerTable) : s.expireAll.list = s.list ∧ s.expireAll.handle.async = s.handle.async ∧
    s.expireAll.added = s.added ∧ (∀ call : ExpiryCall, call.crashes s.expireAll = call.crashes s) ∧
    ∀ (call : ExpiryCall) (l : ℕ), call.readds s.expireAll l = call.readds s l := by
  have hcrashes : ∀ m : ManagedListeners, ∀ call : ExpiryCall,
      call.crashes { s with handle.managed := m } = call.crashes s := by
    intro m call
    cases call <;> rfl
  have hreadds : ∀ (call : ExpiryCall) (l : ℕ),
      call.readds { s with handle.managed := s.handle.managed.expire none } l = call.readds s l := by
    intro call l
    cases call with
    | add args memory => cases args <;> rfl
    | _ => rfl
  unfold ListenerTable.expireAll
  split
  · exact ⟨rfl, rfl, rfl, hcrashes _, hreadds⟩
  · exact ⟨rfl, rfl, rfl, fun _ => rfl, fun _ _ => rfl⟩

/-- **What is marked at the removal (proved)** is what is stale, exactly when nothing stale has been `written`. -/
theorem marked_iff {s₂ : ListenerTable} {new : List ℕ} {written : ℕ → Bool} (hlist : s₂.list = s.list ++ new)
    (hnew : ∀ l ∈ new, l ∉ s.list ∧ s₂.expired l = false)
    (hmark : ∀ l ∈ s.list, s₂.independent l = s.independent l ∧
      (s.independent l = false → s₂.expired l = (!written l && !calls.any (·.readds s l)))) :
    (∀ l ∈ s₂.list, s.stale calls l = (!s₂.independent l && s₂.expired l)) ↔
      ∀ l, s.stale calls l = true → written l = false := by
  constructor
  · intro hall l hstale
    have hstale' := hstale
    simp only [ListenerTable.stale, Bool.and_eq_true, decide_eq_true_eq, Bool.not_eq_true'] at hstale'
    obtain ⟨⟨hl, hindependent⟩, hreadd⟩ := hstale'
    have hl₂ : l ∈ s₂.list := hlist ▸ List.mem_append_left new hl
    obtain ⟨hsame, hexpired⟩ := hmark l hl
    have heq := hall l hl₂
    rw [hstale, hsame, hindependent, hexpired hindependent, hreadd, Bool.not_false, Bool.true_and, Bool.and_true] at heq
    exact Bool.not_eq_true' _ ▸ heq.symm
  · intro hall l hl₂
    rw [hlist] at hl₂
    rcases List.mem_append.mp hl₂ with hl | hl
    · obtain ⟨hsame, hexpired⟩ := hmark l hl
      have hstale : s.stale calls l = (!s.independent l && !calls.any (·.readds s l)) := by
        unfold ListenerTable.stale
        rw [decide_eq_true hl, Bool.true_and]
      rw [hsame]
      cases hindependent : s.independent l with
      | true =>
        rw [hstale, hindependent]
        rfl
      | false =>
        rw [hexpired hindependent]
        cases hreadd : calls.any (·.readds s l) with
        | true => rw [hstale, hreadd, Bool.not_true, Bool.and_false, Bool.and_false, Bool.and_false]
        | false =>
          have hstale' : s.stale calls l = true := by
            rw [hstale, hindependent, hreadd]
            rfl
          rw [hstale', hall l hstale']
          rfl
    · obtain ⟨hnotin, hexpired⟩ := hnew l hl
      unfold ListenerTable.stale
      rw [decide_eq_false hnotin, hexpired, Bool.false_and, Bool.false_and, Bool.and_false]

/-- Without listeners nothing is removed. -/
theorem removesExactly_sync (hasync : s.handle.async = false) {gone : ℕ → Bool} (hgone : ∀ l, gone l = false) :
    s.RemovesExactly gone := by
  have hcall : s.handle.connARemoveListenerEx true connListenerExpired none false =
      .returned (-1) Errno.econnioinit [] s.handle := by
    simp [ListenerHandle.connARemoveListenerEx, ListenerHandle.check, hasync]
  refine ⟨-1, Errno.econnioinit, s.handle, hcall, fun h => ?_, fun l hl => ⟨fun h => ?_, fun _ => ⟨hl, rfl⟩⟩⟩
  · rw [hasync] at h
    cases h
  · rw [hgone l] at h
    cases h

end Sweep

/-- **Expire, add again, remove is mark and sweep exactly when the marks are kept (proved).** -/
theorem markAndSweep_iff (r : Reload) (calls : List ExpiryCall) : MarkAndSweep r calls ↔ MarksKept r calls := by
  obtain ⟨s, hformed, henabled⟩ := r
  obtain ⟨hlist, hasync₁, hadded, hcrashes, hreadds⟩ := expireAll_fields s
  have hformed₁ : s.expireAll.Formed :=
    ⟨hlist ▸ hformed.nodup, fun l hl => hadded ▸ hformed.bounded l (hlist ▸ hl)⟩
  obtain ⟨hgoes, hends⟩ := runCalls_spec calls s.expireAll hformed₁
  have hany : calls.any (·.crashes s.expireAll) = calls.any (·.crashes s) := by
    simp only [hcrashes]
  rw [hany] at hgoes hends
  cases hcrash : calls.any (·.crashes s) with
  | true =>
    refine iff_of_false ?_ fun hkept => ?_
    · rintro ⟨s₁, s₂, hexpire, hrun, _⟩
      rw [ListenerTable.after_expire] at hexpire
      cases hexpire
      rw [hends hcrash] at hrun
      cases hrun
    · have hreturns := hkept.returns
      rw [hcrash] at hreturns
      cases hreturns
  | false =>
    obtain ⟨s₂, hrun, hasync₂, ⟨new, hlist₂, hnew⟩, hold⟩ := hgoes hcrash
    have hsweep : MarkAndSweep ⟨s, hformed, henabled⟩ calls ↔ s₂.RemovesExactly (s.stale calls) := by
      constructor
      · rintro ⟨s₁, s₂', hexpire, hrun', hremoves⟩
        rw [ListenerTable.after_expire] at hexpire
        cases hexpire
        cases hrun.symm.trans hrun'
        exact hremoves
      · exact fun hremoves => ⟨_, s₂, s.after_expire, hrun, hremoves⟩
    have hkept : MarksKept ⟨s, hformed, henabled⟩ calls ↔
        ∀ l, s.stale calls l = true → rewritten l calls s.expireAll = false :=
      ⟨fun h => h.kept, fun h => ⟨hcrash, h⟩⟩
    rw [hsweep, hkept]
    cases hasync : s.handle.async with
    | false =>
      have hempty : s.list = [] := by
        by_contra hne
        rw [henabled hne] at hasync
        cases hasync
      have hnone : ∀ l, s.stale calls l = false := by
        intro l
        unfold ListenerTable.stale
        rw [hempty]
        rfl
      refine iff_of_true (removesExactly_sync (hasync₂.trans (hasync₁.trans hasync)) hnone) fun l hl => ?_
      rw [hnone l] at hl
      cases hl
    | true =>
      rw [removesExactly_iff (hasync₂.trans (hasync₁.trans hasync))]
      -- what is there at the expiry, and not independent, is marked until a call writes it or adds it again
      have hmark : ∀ l ∈ s.list, s₂.independent l = s.independent l ∧ (s.independent l = false →
          s₂.expired l = (!rewritten l calls s.expireAll && !calls.any (·.readds s l))) := by
        intro l hl
        obtain ⟨hindependent, hexpired⟩ := hold l (hlist.symm ▸ hl)
        obtain ⟨hindependent₁, hexpired₁⟩ := expireAll_spec hasync hl
        refine ⟨hindependent.trans hindependent₁, fun hfalse => ?_⟩
        rw [hexpired, hexpired₁ hfalse, Bool.true_and]
        simp only [hreadds]
      exact marked_iff (hlist₂.trans (congrArg (· ++ new) hlist)) (fun l hl => hlist ▸ hnew l hl) hmark

/-- A handle with one listener, which has failed. -/
def oneFailed : Reload where
  table :=
    { handle := { managed := { record := fun _ => ⟨none, connListenerFailed⟩, list := [0] } }
      args := fun _ => ⟨[1], 5, 0, none⟩
      added := 1 }
  formed := ⟨List.nodup_singleton 0, fun l hl => by
    rw [List.mem_singleton.mp hl]
    exact Nat.one_pos⟩
  enabled := fun _ => rfl

/-- **A listener that fails once more between the expiry and the removal survives.** -/
theorem start_unmarks : ¬ ∀ (r : Reload) (calls : List ExpiryCall), MarkAndSweep r calls := by
  intro h
  obtain ⟨s₁, s₂, hexpire, hrun, value, errno, h', hremove, _, hall⟩ := h oneFailed [.start true 0 none fun _ => false]
  rw [ListenerTable.after_expire] at hexpire
  cases hexpire
  cases hrun
  cases hremove
  have hgone := ((hall 0 List.mem_cons_self).1 (by decide)).2.1 rfl
  revert hgone
  decide

end Connio
