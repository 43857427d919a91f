import Connio.ListenerCalls
import Connio.ListenerRecordsInv

/-!
# Restarting a listener with another address

`ConnARestartListenerEx` (`connio.c`) overwrites the conn, the address and the state of a listener, starts it, and puts
the old values back when that fails.

* `RestartsAnew` — the checks of the arguments pass, and the address is another one;
* `RestartedTo`, `AllOrNothing` — what a restart owes when it returns 1, and when it returns 0;
* `restart_started` — **PROVED**: what `ConnAStartListenerEx` does to the listener, with the handle passed on;
* `restart_named_iff` — **PROVED**: when a restart would be all or nothing with the handle passed on;
* `restart_same` — **PROVED**: a restart with the address that the listener has;
* `restartSound_iff` — **PROVED**: a restart is all or nothing only where there is no memory and the state was
  `CONN_LISTENER_FRESH`.
-/

namespace Connio

/-! ### What a restart owes -/

/-- **The checks of the arguments pass, and the address is another one.** -/
structure RestartsAnew (h : ListenerHandle) (l : ℕ) (addr : List UInt8) : Prop where
  async : h.async = true
  running : h.shuttingDown = false
  allowed : h.preventNew = false
  other : addr ≠ h.sa l

/-- **The listener has moved:** it is active on the address, not expired, and as independent as it was; the conn that it
had has been shut down, without its `client.data`. -/
structure RestartedTo (h h' : ListenerHandle) (l : ℕ) (addr : List UInt8) : Prop where
  sa : h'.sa l = addr
  active : (h'.managed.record l).has connListenerActive = true
  conn : (h'.managed.record l).conn ≠ none
  unexpired : (h'.managed.record l).has connListenerExpired = false
  independent : (h'.managed.record l).has connListenerIndependent = (h.managed.record l).has connListenerIndependent
  dismissed : ∀ c, (h.managed.record l).conn = some c →
    .shutdown c ∈ h'.signals ∧ (h'.managed.conn c).data = none

/-- **All or nothing:** the call returns; with 0 the record is as before, and with another value it has moved. -/
def AllOrNothing (h : ListenerHandle) (l : ℕ) (addr : List UInt8) : CallOutcome → Prop
  | .returned value _ _ h' =>
    (value = 0 → h'.managed.record l = h.managed.record l ∧ h'.sa l = h.sa l) ∧
      (value ≠ 0 → RestartedTo h h' l addr)
  | .crashed _ => False
  | .waiting => False

/-- **A restart is sound:** it is all or nothing with another address; `ConnARestartListenerEx` passes NULL on. -/
def RestartSound (h : ListenerHandle) (l : ℕ) (addr : List UInt8) (memory : Bool) (answers : List ListenAnswer) : Prop :=
  RestartsAnew h l addr → AllOrNothing h l addr (h.connARestartListenerEx false l (some addr) memory answers)

/-! ### The start -/

section Restart

variable {h : ListenerHandle} {l : ℕ} {addr : List UInt8} {answers : List ListenAnswer}

/-- The listener when `ConnAStartListenerEx` is called. -/
def ListenerHandle.moved (h : ListenerHandle) (l : ℕ) (addr : List UInt8) : ListenerHandle :=
  { h with
    managed := h.managed.setRecord l { conn := none, state := connListenerFresh }
    sa := Function.update h.sa l addr }

theorem allOrNothing_zero {errno : Errno} {ids : List ℕ} {h' : ListenerHandle} :
    AllOrNothing h l addr (.returned 0 errno ids h') ↔
      h'.managed.record l = h.managed.record l ∧ h'.sa l = h.sa l :=
  ⟨fun hboth => hboth.1 rfl, fun hback => ⟨fun _ => hback, fun hne => absurd rfl hne⟩⟩

theorem allOrNothing_one {errno : Errno} {ids : List ℕ} {h' : ListenerHandle} :
    AllOrNothing h l addr (.returned 1 errno ids h') ↔ RestartedTo h h' l addr :=
  ⟨fun hboth => hboth.2 (by decide), fun hmoved => ⟨fun hzero => absurd hzero (by decide), fun _ => hmoved⟩⟩

/-- A listener that is active, and nothing else. -/
theorem active_flags (c : Option ℕ) : (⟨c, connListenerActive⟩ : ConnListenerPriv).has connListenerActive = true ∧
    (⟨c, connListenerActive⟩ : ConnListenerPriv).has connListenerExpired = false ∧
    (⟨c, connListenerActive⟩ : ConnListenerPriv).has connListenerIndependent = false ∧
    (⟨c, connListenerActive⟩ : ConnListenerPriv).unexpire = ⟨c, connListenerActive⟩ := by
  simp [ConnListenerPriv.has, ConnListenerPriv.unexpire, connListenerActive, connListenerExpired, connListenerIndependent]

/-- A record of a listener that has been restored. -/
theorem restore_record (h : ListenerHandle) (l : ℕ) (r : ConnListenerPriv) (sa : List UInt8) :
    (h.restore l r sa).managed.record l = { h.managed.record l with conn := r.conn } ∧ (h.restore l r sa).sa l = sa :=
  ⟨setRecord_self .., Function.update_self ..⟩

variable (answers) in
/-- **The start with the handle (proved):** when nobody interferes, the listener is active or has failed, and nothing
else is left of its state. -/
theorem restart_started (hanew : RestartsAnew h l addr) (ok : Bool) :
    ∃ h', (h.moved l addr).connAStartListenerEx true 0 (some l) ({ ok := ok } :: answers) =
        .returned (if ok then 1 else 0) 0 [] h' ∧
      h'.managed.record l = ⟨if ok then some h.managed.allocated else none,
        if ok then connListenerActive else connListenerFailed⟩ ∧
      h'.sa l = addr := by
  have hcheck : (h.moved l addr).check true (some l) = none := by
    rw [check_named]
    show (if !h.async then _ else _) = _
    rw [hanew.async]
    rfl
  have hdown : (h.moved l addr).shuttingDown = false := hanew.running
  have hallowed : (h.moved l addr).preventNew = false := hanew.allowed
  have hpick : (h.moved l addr).managed.pick (some l) (ListenerHandle.startable 0) [l] = some l := by
    have hrecord : (h.moved l addr).managed.record l = ⟨none, connListenerFresh⟩ := setRecord_self ..
    unfold ManagedListeners.pick
    rw [List.find?_cons, hrecord]
    rfl
  unfold ListenerHandle.connAStartListenerEx
  rw [hcheck]
  simp only [hdown, hallowed, Bool.not_true, Bool.false_eq_true, if_false, ManagedListeners.candidates, Option.elim_some,
    hpick]
  cases ok with
  | true =>
    simp [ListenerHandle.startLoop, ListenerHandle.listen, ManagedListeners.settle, ManagedListeners.pick,
      ManagedListeners.rest, ListenerHandle.moved, ManagedListeners.setRecord, ManagedListeners.setConn,
      ConnListenerPriv.setState, connListenerFresh, connListenerActive, connListenerIndependent]
  | false =>
    simp [ListenerHandle.startLoop, ListenerHandle.listen, ManagedListeners.settle, ManagedListeners.pick,
      ManagedListeners.rest, ListenerHandle.moved, ManagedListeners.setRecord, ConnListenerPriv.setState,
      connListenerFresh, connListenerFailed, connListenerIndependent]

/-- What `ConnARestartListenerEx` comes to. -/
theorem restart_anew (hanew : RestartsAnew h l addr) (named memory : Bool) :
    h.connARestartListenerEx named l (some addr) memory answers =
      if memory then
        match (h.moved l addr).connAStartListenerEx named 0 (some l) answers with
        | .returned value errno _ h' =>
          if value = 0 then .returned 0 errno [] (h'.restore l (h.managed.record l) (h.sa l))
          else
            match (h.managed.record l).conn with
            | none => .crashed .conn
            | some c =>
              .returned 1 0 [] { h'.dismiss c with
                managed := (h'.dismiss c).managed.setRecord l ((h'.dismiss c).managed.record l).unexpire }
        | other => other
      else
        .returned 0 Errno.enomem [] ({ h with
          managed := h.managed.setRecord l { conn := none, state := connListenerFresh } }.restore l (h.managed.record l)
            (h.sa l)) := by
  have hasync : ¬ (!h.async) = true := by simp [hanew.async]
  have hrunning : ¬ h.shuttingDown = true := by simp [hanew.running]
  have hallowed : ¬ h.preventNew = true := by simp [hanew.allowed]
  unfold ListenerHandle.connARestartListenerEx
  show (if !h.async then _ else if h.shuttingDown then _ else if h.preventNew then _ else if addr = h.sa l then _ else _) = _
  rw [if_neg hasync, if_neg hrunning, if_neg hallowed, if_neg hanew.other]
  rfl

/-- **Without memory (proved)** the conn and the address are as before, and the state is `CONN_LISTENER_FRESH`. -/
theorem restart_noMemory (hanew : RestartsAnew h l addr) (named : Bool) :
    AllOrNothing h l addr (h.connARestartListenerEx named l (some addr) false answers) ↔
      (h.managed.record l).state = connListenerFresh := by
  rw [restart_anew hanew, if_neg Bool.false_ne_true, allOrNothing_zero, (restore_record ..).1, (restore_record ..).2,
    setRecord_self]
  constructor
  · rintro ⟨heq, _⟩
    exact (congrArg ConnListenerPriv.state heq).symm
  · intro hfresh
    refine ⟨?_, rfl⟩
    rw [← hfresh]

/-- **With NULL passed on (proved)** the start dereferences it. -/
theorem restart_unnamed (hanew : RestartsAnew h l addr) :
    h.connARestartListenerEx false l (some addr) true answers = .crashed .handle := by
  rw [restart_anew hanew, if_pos rfl, start_unnamed (h.moved l addr) 0 l answers ⟨hanew.async, hanew.running⟩]

/-- **With the handle passed on (proved)** a restart that nobody interferes with would be all or nothing only where the
state that it does not put back is the one that the start leaves; else only where the listener had a conn, and was not
independent. -/
theorem restart_named_iff (hanew : RestartsAnew h l addr) (ok : Bool) :
    AllOrNothing h l addr (h.connARestartListenerEx true l (some addr) true ({ ok := ok } :: answers)) ↔
      if ok then (h.managed.record l).conn ≠ none ∧ (h.managed.record l).has connListenerIndependent = false
      else (h.managed.record l).state = connListenerFailed := by
  obtain ⟨h', hstart, hrecord, hsa⟩ := restart_started answers hanew ok
  rw [restart_anew hanew, if_pos rfl, hstart]
  cases ok with
  | false =>
    show AllOrNothing h l addr (.returned 0 0 [] (h'.restore l (h.managed.record l) (h.sa l))) ↔ _
    rw [allOrNothing_zero, (restore_record ..).1, (restore_record ..).2, hrecord]
    constructor
    · rintro ⟨heq, _⟩
      exact (congrArg ConnListenerPriv.state heq).symm
    · intro hfailed
      refine ⟨?_, rfl⟩
      rw [← show (h.managed.record l).state = connListenerFailed from hfailed]
      rfl
  | true =>
    show AllOrNothing h l addr (match (h.managed.record l).conn with | none => _ | some c => _) ↔ _
    cases hconn : (h.managed.record l).conn with
    | none => exact iff_of_false id fun hne => hne.1 rfl
    | some c =>
      have hnew : ((h'.dismiss c).managed.setRecord l ((h'.dismiss c).managed.record l).unexpire).record l =
          ⟨some h.managed.allocated, connListenerActive⟩ := by
        rw [setRecord_self]
        show (h'.managed.record l).unexpire = _
        rw [hrecord]
        exact (active_flags _).2.2.2
      obtain ⟨hactive, hunexpired, hindependent', _⟩ := active_flags (some h.managed.allocated)
      simp only [if_true, ne_eq, Option.some_ne_none, not_false_eq_true, true_and]
      rw [allOrNothing_one]
      constructor
      · intro hmoved
        have hsame := hmoved.independent
        rw [hnew, hindependent'] at hsame
        exact hsame.symm
      · intro hindependent
        refine ⟨hsa, ?_, ?_, ?_, ?_, fun c' hc' => ?_⟩
        · rw [hnew, hactive]
        · rw [hnew]
          exact Option.some_ne_none _
        · rw [hnew, hunexpired]
        · rw [hnew, hindependent, hindependent']
        · cases hconn.symm.trans hc'
          exact ⟨List.mem_append_right _ List.mem_cons_self, congrArg ListenerConn.data (setConn_self ..)⟩

/-- **A restart with the address that the listener has (proved)** leaves a listener with a conn as it is, and returns
1. -/
theorem restart_same (hasync : h.async = true) (hrunning : h.shuttingDown = false) (hallowed : h.preventNew = false)
    {c : ℕ} (hconn : (h.managed.record l).conn = some c) (named memory : Bool) :
    h.connARestartListenerEx named l (some (h.sa l)) memory answers = .returned 1 0 [] h := by
  unfold ListenerHandle.connARestartListenerEx
  simp only [hasync, hrunning, hallowed, hconn, Bool.not_true, Bool.false_eq_true, if_false, if_true, Option.isSome_some]

/-! ### The result -/

/-- **A restart is sound exactly when there is no memory for the address and the state was `CONN_LISTENER_FRESH`
(proved).** -/
theorem restartSound_iff (h : ListenerHandle) (l : ℕ) (addr : List UInt8) (memory : Bool) (answers : List ListenAnswer) :
    RestartSound h l addr memory answers ↔
      (RestartsAnew h l addr → memory = false ∧ (h.managed.record l).state = connListenerFresh) := by
  refine forall_congr' fun hanew => ?_
  cases memory with
  | false => exact (restart_noMemory hanew false).trans (by simp)
  | true =>
    rw [restart_unnamed hanew]
    exact iff_of_false id fun hnot => Bool.false_ne_true hnot.1.symm

end Restart

/-- A handle with one listener, which is active on conn 0. -/
def oneActive : ListenerHandle where
  managed := { record := fun _ => ⟨some 0, connListenerActive⟩, list := [0], allocated := 1 }

/-- **A restart is not all or nothing:** it ends in `newListenersAllowed( NULL )`. -/
theorem restart_fails : ¬ ∀ (h : ListenerHandle) (l : ℕ) (addr : List UInt8) (memory : Bool)
    (answers : List ListenAnswer), RestartSound h l addr memory answers := by
  intro h
  exact h oneActive 0 [1] true [] ⟨rfl, rfl, rfl, by decide⟩

end Connio
