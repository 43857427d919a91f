import Connio.Event
import Connio.ListenerRecords
import Mathlib.Data.Int.Notation

/-!
# The calls for managed listeners, with the handle and without

Each of the functions for the listeners of a handle (`connio.c`) takes the handle from the listener when its caller
passes NULL.  Then it goes on with the private handle, or with what it has been passed.

* `ListenerHandle` — a handle, its listeners, and what has been called on their conns;
* `connAStartListenerEx` … `connAListenerStatusEx` — the functions, with the handle or NULL and a listener or NULL;
* `connAListenerCallback`, `connARestartListenerEx` — the two that start a listener themselves;
* `ListenerCall.run`, `ListenerCall.NamesAlike` — a call, and that NULL makes no difference to it;
* `ListenerCall.StartsUnnamed` — the call comes to `newListenersAllowed` in `ConnAStartListenerEx`;
* `namesAlike_iff` — **PROVED**: NULL makes a difference to these calls only;
* `namesAlike_fails` — **PROVED**: a listener is started without its handle.
-/

namespace Connio

def connListenerSuspended : ℕ := 0x10
def connListenerExpired : ℕ := 0x20

def Errno.econnioinit : Errno := 780

/-! ### A handle and its listeners -/

namespace ManagedListeners

variable (s : ManagedListeners)

/-- The state of the listeners of a loop is set. -/
def setStates (selected : List ℕ) (f : ConnListenerPriv → ConnListenerPriv) : ManagedListeners :=
  { s with record := fun l => if l ∈ selected then f (s.record l) else s.record l }

/-- The filter of `ConnASuspendListenerEx` and `ConnAResumeListenerEx`. -/
def inState (flag : ℕ) (only : Option ℕ) (l : ℕ) : Bool :=
  !(only.isNone && (s.record l).has connListenerIndependent) && (s.record l).has flag && only.all (· = l)

/-- The filter of `ConnAExpireListenerEx`, which does not look at `which`. -/
def unexpired (only : Option ℕ) (l : ℕ) : Bool :=
  !(only.isNone && (s.record l).has connListenerIndependent) && !(s.record l).has connListenerExpired &&
    only.all (· = l)

/-- `ConnASuspendListenerEx` and `ConnAResumeListenerEx`, from one state to the other. -/
def switch (only : Option ℕ) (flag flag' : ℕ) : ManagedListeners :=
  s.setStates (s.list.filter (s.inState flag only)) fun r => r.setState flag'

/-- `ConnAExpireListenerEx` -/
def expire (only : Option ℕ) : ManagedListeners :=
  s.setStates (s.list.filter (s.unexpired only)) fun r => { r with state := r.state ||| connListenerExpired }

end ManagedListeners

/-- `state & ~CONN_LISTENER_EXPIRED` -/
def ConnListenerPriv.unexpire (r : ConnListenerPriv) : ConnListenerPriv :=
  { r with state := r.state &&& (0xffffffff - connListenerExpired) }

/-- What is called on the conn of a listener. -/
inductive ListenerSignal where
  /-- `ConnAListenerShutdown` -/
  | shutdown (c : ℕ)
  /-- `ConnAListenSuspend` -/
  | suspend (c : ℕ)
  /-- `ConnAListenResume` -/
  | resume (c : ℕ)
  deriving DecidableEq, Repr

structure ListenerHandle where
  /-- `flags.fixed & CONN_HANDLE_ASYNC_ENABLED` -/
  async : Bool := true
  shuttingDown : Bool := false
  /-- `listener.preventNew` -/
  preventNew : Bool := false
  /-- `listener.head`, and the conns -/
  managed : ManagedListeners
  /-- `sa` and `salen` of a listener -/
  sa : ℕ → List UInt8 := fun _ => []
  signals : List ListenerSignal := []

/-- A pointer that is NULL, and used. -/
inductive NullUse where
  /-- `handle->listener.preventNew` in `newListenersAllowed` -/
  | handle
  /-- `c->client.data` in `ConnARestartListenerEx` -/
  | conn
  deriving DecidableEq, Repr

/-- How a call ends. -/
inductive CallOutcome where
  | crashed (use : NullUse)
  /-- the call needs more answers of `ConnAListenEx` -/
  | waiting
  /-- the value, the `errno` of its checks, the ids in the `ConnListenerList`, and the handle -/
  | returned (value : ℤ) (errno : Errno) (ids : List ℕ) (h : ListenerHandle)

/-- What `ConnAListenEx` answers, and what other threads do to the handle before and after. -/
structure ListenAnswer where
  ok : Bool
  before : ListenerHandle → ListenerHandle := id
  after : ListenerHandle → ListenerHandle := id

namespace ListenerHandle

variable (h : ListenerHandle)

/-- The listeners of a loop, with their conns signalled. -/
def signal (f : ℕ → ListenerSignal) (selected : List ℕ) : ListenerHandle :=
  { h with signals := h.signals ++ (selected.filterMap fun l => (h.managed.record l).conn).map f }

/-- `!notNull(handle) || !asyncEnabledHandle(handle)`, with the handle of the listener for NULL -/
def check (named : Bool) (only : Option ℕ) : Option Errno :=
  if !named && only.isNone then some Errno.einval
  else if !h.async then some Errno.econnioinit
  else none

/-! ### The functions -/

/-- `ConnAListenEx` with the handle or NULL, stored into the listener. -/
def listen (named : Bool) (l : ℕ) (ok : Bool) : ListenerHandle :=
  if named && ok then
    { h with managed := ({ h.managed with allocated := h.managed.allocated + 1 }.setConn h.managed.allocated
        { live := true }).setRecord l { h.managed.record l with conn := some h.managed.allocated } }
  else { h with managed := h.managed.setRecord l { h.managed.record l with conn := none } }

/-- The loop of `ConnAStartListenerEx` from the listener that is started next. -/
def startLoop (named : Bool) (only : Option ℕ) (which : ℕ) :
    List ListenAnswer → ListenerHandle → Option ℕ → ℕ → CallOutcome
  | _, h, none, c => .returned c 0 [] h
  | [], _, some _, _ => .waiting
  | a :: answers, h, some l, c =>
    let h := a.after ((a.before h).listen named l a.ok)
    let h' := { h with managed := h.managed.settle l }
    startLoop named only which answers h' (h'.managed.pick only which (h'.managed.rest only l))
      (if (h.managed.record l).conn.isSome then c + 1 else c)

/-- `which == 0` stands for these states. -/
def startable (which : ℕ) : ℕ :=
  if which = 0 then connListenerFresh ||| connListenerActive ||| connListenerFailed ||| connListenerStopped else which

/-- `ConnAStartListenerEx` -/
def connAStartListenerEx (named : Bool) (which : ℕ) (only : Option ℕ) (answers : List ListenAnswer) : CallOutcome :=
  match h.check named only with
  | some errno => .returned 0 errno [] h
  | none =>
    if h.shuttingDown then .returned 0 Errno.econnhandleshutdown [] h
    else if !named then .crashed .handle
    else if h.preventNew then .returned 0 Errno.eshutdown [] h
    else startLoop named only (startable which) answers h
      (h.managed.pick only (startable which) (h.managed.candidates only)) 0

/-- `ConnAStopListenerEx` -/
def connAStopListenerEx (named : Bool) (which : ℕ) (only : Option ℕ) : CallOutcome :=
  match h.check named only with
  | some errno => .returned 0 errno [] h
  | none =>
    let selected := h.managed.list.filter (h.managed.selected which only)
    .returned selected.length 0 [] { h.signal .shutdown selected with managed := h.managed.stop which only }

/-- `ConnASuspendListenerEx` and `ConnAResumeListenerEx`, from one state to the other. -/
def switch (named : Bool) (only : Option ℕ) (flag flag' : ℕ) (f : ℕ → ListenerSignal) : CallOutcome :=
  match h.check named only with
  | some errno => .returned 0 errno [] h
  | none =>
    let selected := h.managed.list.filter (h.managed.inState flag only)
    .returned selected.length 0 [] { h.signal f selected with managed := h.managed.switch only flag flag' }

def connASuspendListenerEx (named : Bool) (only : Option ℕ) : CallOutcome :=
  h.switch named only connListenerActive connListenerSuspended .suspend

def connAResumeListenerEx (named : Bool) (only : Option ℕ) : CallOutcome :=
  h.switch named only connListenerSuspended connListenerActive .resume

/-- `ConnAExpireListenerEx` -/
def connAExpireListenerEx (named : Bool) (_which : ℕ) (only : Option ℕ) : CallOutcome :=
  match h.check named only with
  | some errno => .returned 0 errno [] h
  | none =>
    .returned (h.managed.list.filter (h.managed.unexpired only)).length 0 [] { h with managed := h.managed.expire only }

/-- `ConnARemoveListenerEx` -/
def connARemoveListenerEx (named : Bool) (which : ℕ) (only : Option ℕ) (cllist : Bool) : CallOutcome :=
  match h.check named only with
  | some errno => .returned (-1) errno [] h
  | none =>
    let selected := h.managed.list.filter (h.managed.selected which only)
    .returned selected.length 0 (if cllist then selected else [])
      { h.signal .shutdown selected with managed := h.managed.remove which only cllist }

/-- `ConnAListenerStatusEx`; with `shuttingdown` the loop ends behind the record that it frees. -/
def connAListenerStatusEx (named : Bool) (which : ℕ) (only : Option ℕ) (shuttingdown : Bool) : CallOutcome :=
  match h.check named only with
  | some errno => .returned 0 errno [] h
  | none =>
    if shuttingdown then
      let seen := h.managed.list.takeWhile fun l => !h.managed.unused which only l
      .returned (seen.filter (h.managed.selected which only)).length 0 []
        { h with managed := h.managed.status which only }
    else .returned (h.managed.list.filter (h.managed.selected which only)).length 0 [] h

/-- `ConnAListenerCallback`; `named` is what it passes on, and it passes NULL. -/
def connAListenerCallback (named : Bool) (c : ℕ) (answers : List ListenAnswer) : CallOutcome :=
  let conn := h.managed.conn c
  let h' := { h with managed := h.managed.setConn c { conn with data := none, live := false, freed := true } }
  match conn.data with
  | none => .returned 0 0 [] h'
  | some l =>
    let h'' := { h' with managed := h'.managed.setRecord l { h'.managed.record l with conn := none } }
    if h.shuttingDown || h.preventNew || (h.managed.record l).has connListenerStopped then .returned 0 0 [] h''
    else h''.connAStartListenerEx named 0 (some l) answers

/-- The original values of a listener. -/
def restore (l : ℕ) (r : ConnListenerPriv) (sa : List UInt8) : ListenerHandle :=
  { h with
    managed := h.managed.setRecord l { h.managed.record l with conn := r.conn }
    sa := Function.update h.sa l sa }

/-- The conn of a listener that has another one now. -/
def dismiss (c : ℕ) : ListenerHandle :=
  { h with
    managed := h.managed.setConn c { h.managed.conn c with data := none }
    signals := h.signals ++ [ListenerSignal.shutdown c] }

/-- `ConnARestartListenerEx` with an address or NULL; `named` is what it passes on, and it passes NULL.  `memory`: there
is memory for the address. -/
def connARestartListenerEx (named : Bool) (l : ℕ) (addr : Option (List UInt8)) (memory : Bool)
    (answers : List ListenAnswer) : CallOutcome :=
  match addr with
  | none => .returned 0 Errno.einval [] h
  | some addr =>
    let r := h.managed.record l
    let sa := h.sa l
    if !h.async then .returned 0 Errno.econnioinit [] h
    else if h.shuttingDown then .returned 0 Errno.econnhandleshutdown [] h
    else if h.preventNew then .returned 0 Errno.eshutdown [] h
    else if addr = sa then
      if r.conn.isSome then .returned 1 0 [] h
      else
        match h.connAStartListenerEx named 0 (some l) answers with
        | .returned value errno ids h => .returned (if value = 0 then 0 else 1) errno ids h
        | other => other
    else
      let h := { h with managed := h.managed.setRecord l { conn := none, state := connListenerFresh } }
      if memory then
        match connAStartListenerEx { h with sa := Function.update h.sa l addr } named 0 (some l) answers with
        | .returned value errno _ h =>
          if value = 0 then .returned 0 errno [] (h.restore l r sa)
          else
            match r.conn with
            | none => .crashed .conn
            | some c =>
              let h := h.dismiss c
              .returned 1 0 [] { h with managed := h.managed.setRecord l (h.managed.record l).unexpire }
        | other => other
      else .returned 0 Errno.enomem [] (h.restore l r sa)

end ListenerHandle

/-! ### The handle and NULL -/

/-- A call about one listener. -/
inductive ListenerCall where
  | start (which : ℕ) (answers : List ListenAnswer)
  | stop (which : ℕ)
  | suspend
  | resume
  | expire (which : ℕ)
  | remove (which : ℕ) (cllist : Bool)
  | status (which : ℕ) (shuttingdown : Bool)
  /-- `ConnAListenerCallback` of a conn -/
  | callback (c : ℕ) (answers : List ListenAnswer)
  | restart (addr : Option (List UInt8)) (memory : Bool) (answers : List ListenAnswer)

namespace ListenerCall

/-- **The call,** with the handle or with NULL; the last two pass that on. -/
def run (call : ListenerCall) (h : ListenerHandle) (named : Bool) (l : ℕ) : CallOutcome :=
  match call with
  | start which answers => h.connAStartListenerEx named which (some l) answers
  | stop which => h.connAStopListenerEx named which (some l)
  | suspend => h.connASuspendListenerEx named (some l)
  | resume => h.connAResumeListenerEx named (some l)
  | expire which => h.connAExpireListenerEx named which (some l)
  | remove which cllist => h.connARemoveListenerEx named which (some l) cllist
  | status which shuttingdown => h.connAListenerStatusEx named which (some l) shuttingdown
  | callback c answers => h.connAListenerCallback named c answers
  | restart addr memory answers => h.connARestartListenerEx named l addr memory answers

/-- **NULL makes no difference,** and is not used. -/
def NamesAlike (call : ListenerCall) (h : ListenerHandle) (l : ℕ) : Prop :=
  call.run h false l = call.run h true l ∧ call.run h false l ≠ .crashed .handle

/-- **The call comes to `newListenersAllowed` in `ConnAStartListenerEx`.** -/
def StartsUnnamed (call : ListenerCall) (h : ListenerHandle) (l : ℕ) : Prop :=
  match call with
  | start _ _ => h.async = true ∧ h.shuttingDown = false
  | callback c _ => h.async = true ∧ h.shuttingDown = false ∧ h.preventNew = false ∧
      ∃ l', (h.managed.conn c).data = some l' ∧ (h.managed.record l').has connListenerStopped = false
  | restart addr memory _ => h.async = true ∧ h.shuttingDown = false ∧ h.preventNew = false ∧
      ∃ addr', addr = some addr' ∧ if addr' = h.sa l then (h.managed.record l).conn = none else memory = true
  | _ => False

end ListenerCall

section Names

variable {h : ListenerHandle} {l : ℕ}

/-- A listener stands for its handle. -/
theorem check_named (h : ListenerHandle) (named : Bool) (l : ℕ) :
    h.check named (some l) = if !h.async then some Errno.econnioinit else none := by
  unfold ListenerHandle.check
  simp

/-- The loop does not end with a NULL handle. -/
theorem startLoop_ne {named : Bool} {only : Option ℕ} {which : ℕ} {use : NullUse} (answers : List ListenAnswer) :
    ∀ (h : ListenerHandle) (l : Option ℕ) (c : ℕ),
      ListenerHandle.startLoop named only which answers h l c ≠ .crashed use := by
  induction answers with
  | nil =>
    intro h l c
    cases l with
    | none => simp [ListenerHandle.startLoop]
    | some l => simp [ListenerHandle.startLoop]
  | cons a answers ih =>
    intro h l c
    cases l with
    | none => simp [ListenerHandle.startLoop]
    | some l =>
      simp only [ListenerHandle.startLoop]
      exact ih _ _ _

/-- **`ConnAStartListenerEx` with the handle (proved)** does not use NULL. -/
theorem start_named_ne (h : ListenerHandle) (which : ℕ) (l : ℕ) (answers : List ListenAnswer) (use : NullUse) :
    h.connAStartListenerEx true which (some l) answers ≠ .crashed use := by
  unfold ListenerHandle.connAStartListenerEx
  split
  · simp
  · split
    · simp
    · simp only [Bool.not_true, Bool.false_eq_true, if_false]
      split
      · simp
      · exact startLoop_ne answers _ _ _

/-- **`ConnAStartListenerEx` with NULL (proved)** uses it when the handle is asynchronous and not shutting down. -/
theorem start_unnamed (h : ListenerHandle) (which : ℕ) (l : ℕ) (answers : List ListenAnswer)
    (hcond : h.async = true ∧ h.shuttingDown = false) :
    h.connAStartListenerEx false which (some l) answers = .crashed .handle := by
  unfold ListenerHandle.connAStartListenerEx
  rw [check_named, hcond.1, hcond.2]
  rfl

/-- In all other cases it does not get so far. -/
theorem start_alike (h : ListenerHandle) (which : ℕ) (l : ℕ) (answers : List ListenAnswer)
    (hcond : ¬ (h.async = true ∧ h.shuttingDown = false)) :
    h.connAStartListenerEx false which (some l) answers = h.connAStartListenerEx true which (some l) answers := by
  unfold ListenerHandle.connAStartListenerEx
  rw [check_named, check_named]
  cases hasync : h.async with
  | false => rfl
  | true =>
    have hdown : h.shuttingDown = true := by
      cases hdown : h.shuttingDown with
      | true => rfl
      | false => exact absurd ⟨hasync, hdown⟩ hcond
    simp [hdown]

/-- **`ConnAStartListenerEx` with NULL and with the handle (proved).** -/
theorem start_alike_iff (h : ListenerHandle) (which : ℕ) (l : ℕ) (answers : List ListenAnswer) :
    (h.connAStartListenerEx false which (some l) answers = h.connAStartListenerEx true which (some l) answers ∧
      h.connAStartListenerEx false which (some l) answers ≠ .crashed .handle) ↔
      ¬ (h.async = true ∧ h.shuttingDown = false) := by
  constructor
  · rintro ⟨_, hne⟩ hcond
    exact hne (start_unnamed h which l answers hcond)
  · intro hcond
    have heq := start_alike h which l answers hcond
    exact ⟨heq, heq ▸ start_named_ne h which l answers _⟩

/-- **`ConnAListenerCallback` (proved)** is as good with NULL as with the handle unless it starts its listener. -/
theorem callback_alike_iff (h : ListenerHandle) (l c : ℕ) (answers : List ListenAnswer) :
    (ListenerCall.callback c answers).NamesAlike h l ↔ ¬ (ListenerCall.callback c answers).StartsUnnamed h l := by
  unfold ListenerCall.NamesAlike ListenerCall.StartsUnnamed
  simp only [ListenerCall.run, ListenerHandle.connAListenerCallback]
  cases hdata : (h.managed.conn c).data with
  | none =>
    refine iff_of_true ⟨rfl, by simp⟩ ?_
    rintro ⟨_, _, _, l', hl', _⟩
    cases hl'
  | some l' =>
    simp only
    split
    next hguard =>
      refine iff_of_true ⟨rfl, by simp⟩ ?_
      rintro ⟨_, hdown, hnew, l'', hl'', hstopped⟩
      cases hl''
      rw [hdown, hnew, hstopped] at hguard
      cases hguard
    next hguard =>
      simp only [Bool.or_eq_true, not_or, Bool.not_eq_true] at hguard
      rw [start_alike_iff]
      refine not_congr ⟨fun hcond => ?_, fun hcond => ⟨hcond.1, hcond.2.1⟩⟩
      exact ⟨hcond.1, hguard.1.1, hguard.1.2, l', rfl, hguard.2⟩

/-- **`ConnARestartListenerEx` (proved)** is as good with NULL as with the handle unless it comes to start. -/
theorem restart_alike_iff (h : ListenerHandle) (l : ℕ) (addr : Option (List UInt8)) (memory : Bool)
    (answers : List ListenAnswer) :
    (ListenerCall.restart addr memory answers).NamesAlike h l ↔
      ¬ (ListenerCall.restart addr memory answers).StartsUnnamed h l := by
  unfold ListenerCall.NamesAlike ListenerCall.StartsUnnamed
  simp only [ListenerCall.run, ListenerHandle.connARestartListenerEx]
  cases addr with
  | none =>
    refine iff_of_true ⟨rfl, by simp⟩ ?_
    rintro ⟨_, _, _, addr', haddr, _⟩
    cases haddr
  | some addr =>
    simp only [Option.some.injEq, exists_eq_left']
    cases hasync : h.async with
    | false => simp
    | true =>
      cases hdown : h.shuttingDown with
      | true => simp
      | false =>
        cases hnew : h.preventNew with
        | true => simp
        | false =>
          simp only [Bool.not_true, Bool.false_eq_true, if_false, true_and]
          by_cases haddr : addr = h.sa l
          · simp only [if_pos haddr]
            cases hconn : (h.managed.record l).conn with
            | some c => simp
            | none =>
              rw [start_unnamed h 0 l answers ⟨hasync, hdown⟩]
              simp
          · simp only [if_neg haddr]
            cases memory with
            | false => simp
            | true =>
              simp only [if_true]
              rw [start_unnamed _ 0 l answers ⟨rfl, rfl⟩]
              simp

end Names

/-- **The handle and NULL (proved):** a call is the same with both, and does not use NULL, unless it comes to
`newListenersAllowed` in `ConnAStartListenerEx`. -/
theorem namesAlike_iff (call : ListenerCall) (h : ListenerHandle) (l : ℕ) :
    call.NamesAlike h l ↔ ¬ call.StartsUnnamed h l := by
  have hsame : ∀ named, h.check named (some l) = h.check true (some l) := by
    intro named
    rw [check_named, check_named]
  cases call with
  | start which answers => exact start_alike_iff h which l answers
  | callback c answers => exact callback_alike_iff h l c answers
  | restart addr memory answers => exact restart_alike_iff h l addr memory answers
  | stop which =>
    refine iff_of_true ⟨?_, ?_⟩ fun hf => hf
    · simp only [ListenerCall.run, ListenerHandle.connAStopListenerEx, hsame]
    · simp only [ListenerCall.run, ListenerHandle.connAStopListenerEx]
      split <;> simp
  | suspend =>
    refine iff_of_true ⟨?_, ?_⟩ fun hf => hf
    · simp only [ListenerCall.run, ListenerHandle.connASuspendListenerEx, ListenerHandle.switch, hsame]
    · simp only [ListenerCall.run, ListenerHandle.connASuspendListenerEx, ListenerHandle.switch]
      split <;> simp
  | resume =>
    refine iff_of_true ⟨?_, ?_⟩ fun hf => hf
    · simp only [ListenerCall.run, ListenerHandle.connAResumeListenerEx, ListenerHandle.switch, hsame]
    · simp only [ListenerCall.run, ListenerHandle.connAResumeListenerEx, ListenerHandle.switch]
      split <;> simp
  | expire which =>
    refine iff_of_true ⟨?_, ?_⟩ fun hf => hf
    · simp only [ListenerCall.run, ListenerHandle.connAExpireListenerEx, hsame]
    · simp only [ListenerCall.run, ListenerHandle.connAExpireListenerEx]
      split <;> simp
  | remove which cllist =>
    refine iff_of_true ⟨?_, ?_⟩ fun hf => hf
    · simp only [ListenerCall.run, ListenerHandle.connARemoveListenerEx, hsame]
    · simp only [ListenerCall.run, ListenerHandle.connARemoveListenerEx]
      split <;> simp
  | status which shuttingdown =>
    refine iff_of_true ⟨?_, ?_⟩ fun hf => hf
    · simp only [ListenerCall.run, ListenerHandle.connAListenerStatusEx, hsame]
    · simp only [ListenerCall.run, ListenerHandle.connAListenerStatusEx]
      split
      · simp
      · split <;> simp

/-- **A listener is started without its handle (proved):** `newListenersAllowed` uses NULL. -/
theorem namesAlike_fails : ¬ ∀ (call : ListenerCall) (h : ListenerHandle), ∀ l ∈ h.managed.list,
    call.NamesAlike h l := by
  intro hall
  obtain ⟨_, hne⟩ := hall (.start 0 [⟨true, id, id⟩]) { managed := .new [connListenerFresh] } 0 (by decide)
  exact hne rfl

end Connio
