import Connio.Event
import Connio.Lib.Transition

/-!
# Shutting down the children of a listener

`ConnHandleConnectionsAbortEx` and `ConnHandleConnectionsCloseEx` go through the conns of a handle, and a list of
listener ids tells them whose children to take (`connio.c`).  A conn has the id of the listener that accepted it in
`sp->listenerID`, and a listener its own; a handle numbers its managed listeners, and `SockLib.nextListener` all
others.

* `HandleConn`, `ConnListenerList`, `isChildOfListener`, `connChild` — what the two functions look at;
* `abortConn`, `closeConn` — what they do to one conn; the locks are left out here;
* `Registry`, `registryStep` — the handles of a process, with the ids they give;
* `Accepted` — a conn was accepted by a listener of the list;
* `registryStep_inv` — **PROVED**: a conn has the id of its listener;
* `childrenOnly_iff` — **PROVED**: when exactly no other conn is touched, and which children are told apart;
* `childrenOnly_fails` — **PROVED**: a handle in which another listener is closed.
-/

namespace Connio

open Connio.Lib

/-! ### What a traversal looks at -/

/-- A listener, by who has numbered it. -/
inductive ListenerRef where
  /-- a listener of `ConnAAddListenerEx`, by its handle -/
  | managed (handle id : ℕ)
  /-- a listener of `ConnListenEx` or `ConnAListenEx`, by `getListenerUid` -/
  | unmanaged (id : ℕ)
  deriving DecidableEq, Repr

def ListenerRef.id : ListenerRef → ℕ
  | managed _ id => id
  | unmanaged id => id

structure HandleConn where
  state : ConnState := .idle
  /-- `sp->number`; `none` is `SOCKET_INVALID` -/
  number : Option ℕ := none
  /-- `sp->listenerID` -/
  listenerID : ℕ := 0
  /-- `activeEvent.connect` is not NULL -/
  connectEvent : Bool := false
  /-- what the `shutdownCallback` returns, if there is one -/
  shutdownCallback : Option Bool := none
  /-- the listener the conn was made for, and the one that has accepted it.  No modelled function reads them. -/
  self : Option ListenerRef := none
  parent : Option ListenerRef := none
  deriving DecidableEq, Repr

/-- `ConnListenerListPriv`; the ids are those of listeners of `ConnAAddListenerEx`. -/
structure ConnListenerList where
  handle : ℕ
  list : List ℕ
  pos : ∀ id ∈ list, 0 < id

/-- The loop over `cllist->list`, which ends at the first 0. -/
def listContains : List ℕ → ℕ → Bool
  | [], _ => false
  | lID :: list, listenerID => lID ≠ 0 && (listenerID = lID || listContains list listenerID)

/-- `isChildOfListener` -/
def isChildOfListener (conn : HandleConn) (cllist : ConnListenerList) : Bool :=
  conn.listenerID ≠ 0 && listContains cllist.list conn.listenerID

/-- `connChild` -/
def connChild (cllist : ConnListenerList) (conn : HandleConn) : Bool :=
  match conn.state with
  | .idle | .synchronous | .asynchronousEngineComplete | .asynchronousEngine | .asynchronousClient =>
    conn.listenerID ≠ 0 && listContains cllist.list conn.listenerID
  | .synchronousListener | .asynchronousListener | .cached | .free => false

/-- What is done to a conn. -/
inductive ConnEffect where
  | shutdownCallback
  /-- `SocketDisconnect` -/
  | disconnect
  /-- `SocketClose` -/
  | close
  /-- `EventQueueAbort` -/
  | abort
  /-- `SocketEventKill` -/
  | kill
  /-- `ConnChangeState( conn, CONN_STATE_IDLE )` -/
  | idle
  deriving DecidableEq, Repr

/-- `cllist && !isChildOfListener( conn, cllist )` -/
def leftAlone (cllist : Option ConnListenerList) (conn : HandleConn) : Bool :=
  cllist.any fun cllist => !isChildOfListener conn cllist

/-- `SocketDisconnect` and `SocketClose` of an open socket. -/
def closeSocket (conn : HandleConn) : List ConnEffect :=
  if conn.number.isSome then [.disconnect, .close] else []

/-- `synchronousListenerClose` -/
def synchronousListenerClose (conn : HandleConn) : List ConnEffect :=
  (if conn.number.isSome then [.close] else []) ++ [.idle]

/-- `asynchronousListenerShutdown` -/
def asynchronousListenerShutdown (conn : HandleConn) : List ConnEffect :=
  if conn.connectEvent ∧ conn.state = .asynchronousListener then [.kill] else []

/-- `ConnHandleConnectionsAbortEx` at one conn. -/
def abortConn (cllist : Option ConnListenerList) (conn : HandleConn) : List ConnEffect :=
  match conn.state with
  | .cached | .free => []
  | .idle | .synchronous => if leftAlone cllist conn then [] else closeSocket conn
  | .asynchronousEngineComplete => []
  | .asynchronousEngine | .asynchronousClient => if leftAlone cllist conn then [] else [.abort]
  | .synchronousListener => synchronousListenerClose conn
  | .asynchronousListener => asynchronousListenerShutdown conn

/-- `ConnHandleConnectionsCloseEx` at one conn. -/
def closeConn (cllist : Option ConnListenerList) (conn : HandleConn) : List ConnEffect :=
  (if conn.shutdownCallback.isSome then [.shutdownCallback] else []) ++
    if conn.shutdownCallback = some true then []
    else
      match conn.state with
      | .cached | .free => []
      | .idle | .synchronous | .asynchronousEngine | .asynchronousEngineComplete | .asynchronousClient =>
        if leftAlone cllist conn then [] else closeSocket conn
      | .synchronousListener => synchronousListenerClose conn
      | .asynchronousListener => asynchronousListenerShutdown conn

/-- `ConnHandleConnectionsAbortEx`; the conns of the handle, each with what is done to it. -/
def connHandleConnectionsAbortEx (inUse : List HandleConn) (cllist : Option ConnListenerList) :
    List (HandleConn × List ConnEffect) :=
  inUse.map fun conn => (conn, abortConn cllist conn)

/-- `ConnHandleConnectionsCloseEx` -/
def connHandleConnectionsCloseEx (inUse : List HandleConn) (cllist : Option ConnListenerList) :
    List (HandleConn × List ConnEffect) :=
  inUse.map fun conn => (conn, closeConn cllist conn)

section Traversal

variable {conn : HandleConn} {cllist : ConnListenerList}

theorem listContains_iff {list : List ℕ} (listenerID : ℕ) (hpos : ∀ id ∈ list, 0 < id) :
    listContains list listenerID = true ↔ listenerID ∈ list := by
  induction list with
  | nil => simp [listContains]
  | cons lID list ih =>
    have hne : lID ≠ 0 := Nat.pos_iff_ne_zero.mp (hpos lID List.mem_cons_self)
    have htail := ih fun id hid => hpos id (List.mem_cons_of_mem _ hid)
    simp [listContains, hne, htail]

/-- **A child is known by its id.** -/
theorem isChildOfListener_iff : isChildOfListener conn cllist = true ↔ conn.listenerID ∈ cllist.list := by
  have hcontains := listContains_iff conn.listenerID cllist.pos
  have hzero : conn.listenerID = 0 → conn.listenerID ∉ cllist.list := fun h0 hmem => by
    have hpos := cllist.pos _ hmem
    omega
  unfold isChildOfListener
  rw [Bool.and_eq_true, hcontains, decide_eq_true_eq]
  exact ⟨fun h => h.2, fun h => ⟨fun h0 => hzero h0 h, h⟩⟩

/-- The conns that are waited for are children, and no listeners. -/
theorem connChild_isChild (h : connChild cllist conn = true) : isChildOfListener conn cllist = true := by
  unfold connChild at h
  split at h
  all_goals first | exact h | cases h

end Traversal

/-! ### The ids of listeners and conns -/

/-- The handles of a process. -/
structure Registry where
  /-- `SockLib.nextListener` -/
  nextListener : ℕ := 0
  /-- `handle->listener.last` -/
  last : ℕ → ℕ := fun _ => 0
  /-- the conns in use, each with its handle -/
  conns : List (ℕ × HandleConn) := []

/-- The conns in `handle->inUse`. -/
def Registry.inUse (r : Registry) (handle : ℕ) : List HandleConn :=
  (r.conns.filter fun c => c.1 = handle).map Prod.snd

/-- The fields of a conn that its consumer, the engine and its peer change. -/
structure ConnChange where
  state : ConnState
  number : Option ℕ
  connectEvent : Bool
  shutdownCallback : Option Bool
  deriving DecidableEq, Repr

inductive RegistryAction where
  /-- `ConnAAddListenerEx` -/
  | addListener (handle : ℕ)
  /-- `ConnAStartListenerEx` of the listener with this id -/
  | startListener (handle id : ℕ)
  /-- `ConnListenEx`, and `ConnAListenEx` without an id -/
  | listen (handle : ℕ)
  /-- a connection is accepted by the listener of the `i`th conn -/
  | accept (i : ℕ)
  /-- a conn is allocated -/
  | alloc (handle : ℕ)
  /-- the `i`th conn changes -/
  | change (i : ℕ) (c : ConnChange)
  /-- the `i`th conn is freed -/
  | free (i : ℕ)
  deriving DecidableEq, Repr

/-- **One step;** `none` when the action is not enabled. -/
def registryStep (r : Registry) : RegistryAction → Option Registry
  | .addListener handle =>
    some { r with last := fun h => if h = handle then r.last handle + 1 else r.last h }
  | .startListener handle id =>
    if 0 < id ∧ id ≤ r.last handle then
      some { r with conns := (handle, { listenerID := id, self := some (.managed handle id) }) :: r.conns }
    else none
  | .listen handle =>
    some { r with
      nextListener := r.nextListener + 1
      conns :=
        (handle, { listenerID := r.nextListener + 1, self := some (.unmanaged (r.nextListener + 1)) }) :: r.conns }
  | .accept i =>
    match r.conns[i]? with
    | some (handle, { self := some ref, listenerID, .. }) =>
      some { r with conns := (handle, { listenerID := listenerID, parent := some ref }) :: r.conns }
    | _ => none
  | .alloc handle => some { r with conns := (handle, {}) :: r.conns }
  | .change i c =>
    match r.conns[i]? with
    | some (handle, conn) =>
      some { r with
        conns := r.conns.set i (handle, { conn with
          state := c.state, number := c.number, connectEvent := c.connectEvent
          shutdownCallback := c.shutdownCallback }) }
    | none => none
  | .free i => some { r with conns := r.conns.eraseIdx i }

/-- **A conn has the id of its listener,** which its handle or the library has given. -/
structure ConnKnown (r : Registry) (handle : ℕ) (conn : HandleConn) : Prop where
  listenerID : ∀ ref, conn.self.or conn.parent = some ref → conn.listenerID = ref.id
  client : conn.self.or conn.parent = none → conn.listenerID = 0
  managed : ∀ h id, conn.self.or conn.parent = some (.managed h id) → h = handle ∧ 0 < id ∧ id ≤ r.last handle
  unmanaged : ∀ id, conn.self.or conn.parent = some (.unmanaged id) → 0 < id ∧ id ≤ r.nextListener
  kinds : conn.self = none ∨ conn.parent = none

/-- **All conns are known.** -/
def RegistryInv (r : Registry) : Prop := ∀ handle conn, (handle, conn) ∈ r.conns → ConnKnown r handle conn

section Ids

variable {r r' : Registry} {a : RegistryAction}

/-- The counters only grow. -/
theorem ConnKnown.mono {handle : ℕ} {conn : HandleConn} (h : ConnKnown r handle conn)
    (hlast : r.last handle ≤ r'.last handle) (hnext : r.nextListener ≤ r'.nextListener) :
    ConnKnown r' handle conn := by
  refine ⟨h.listenerID, h.client, fun h' id href => ?_, fun id href => ?_, h.kinds⟩
  · obtain ⟨heq, hpos, hle⟩ := h.managed h' id href
    exact ⟨heq, hpos, Nat.le_trans hle hlast⟩
  · obtain ⟨hpos, hle⟩ := h.unmanaged id href
    exact ⟨hpos, Nat.le_trans hle hnext⟩

/-- A conn is added. -/
theorem RegistryInv.cons (h : RegistryInv r) {handle : ℕ} {conn : HandleConn}
    (hconns : r'.conns = (handle, conn) :: r.conns) (hlast : r'.last = r.last)
    (hnext : r.nextListener ≤ r'.nextListener) (hconn : ConnKnown r' handle conn) : RegistryInv r' := by
  intro handle' conn' hmem
  rw [hconns] at hmem
  rcases List.mem_cons.mp hmem with heq | hmem
  · cases heq
    exact hconn
  · exact (h handle' conn' hmem).mono (Nat.le_of_eq (by rw [hlast])) hnext

/-- **Every step (proved).** -/
theorem registryStep_inv (h : RegistryInv r) (hs : registryStep r a = some r') : RegistryInv r' := by
  cases a with
  | addListener handle =>
    cases hs
    intro handle' conn hmem
    refine (h handle' conn hmem).mono ?_ (Nat.le_refl _)
    show r.last handle' ≤ if handle' = handle then r.last handle + 1 else r.last handle'
    split
    next heq =>
      rw [heq]
      exact Nat.le_succ _
    · exact Nat.le_refl _
  | startListener handle id =>
    simp only [registryStep] at hs
    split at hs <;> cases hs
    next hid =>
      refine h.cons rfl rfl (Nat.le_refl _) ⟨fun ref href => ?_, fun hnone => ?_, fun h' id' href => ?_,
        fun id' href => ?_, Or.inr rfl⟩
      · cases href
        rfl
      · cases hnone
      · cases href
        exact ⟨rfl, hid⟩
      · cases href
  | listen handle =>
    cases hs
    refine h.cons rfl rfl (Nat.le_succ _) ⟨fun ref href => ?_, fun hnone => ?_, fun h' id' href => ?_,
      fun id' href => ?_, Or.inr rfl⟩
    · cases href
      rfl
    · cases hnone
    · cases href
    · cases href
      exact ⟨Nat.succ_pos _, Nat.le_refl _⟩
  | accept i =>
    simp only [registryStep] at hs
    split at hs <;> cases hs
    next handle ref listenerID hi =>
      have hlistener := h _ _ (List.mem_of_getElem? hi)
      refine h.cons rfl rfl (Nat.le_refl _) ⟨fun ref' href => ?_, fun hnone => ?_, fun h' id' href => ?_,
        fun id' href => ?_, Or.inl rfl⟩
      · exact hlistener.listenerID ref' href
      · cases hnone
      · exact hlistener.managed h' id' href
      · exact hlistener.unmanaged id' href
  | alloc handle =>
    cases hs
    refine h.cons rfl rfl (Nat.le_refl _) ⟨fun ref href => ?_, fun _ => rfl, fun h' id' href => ?_,
      fun id' href => ?_, Or.inl rfl⟩
    all_goals cases href
  | change i c =>
    simp only [registryStep] at hs
    split at hs <;> cases hs
    next handle conn hi =>
      have hconn := h _ _ (List.mem_of_getElem? hi)
      intro handle' conn' hmem
      rcases List.mem_or_eq_of_mem_set hmem with hmem | heq
      · exact (h handle' conn' hmem).mono (Nat.le_refl _) (Nat.le_refl _)
      · cases heq
        exact ⟨hconn.listenerID, hconn.client, hconn.managed, hconn.unmanaged, hconn.kinds⟩
  | free i =>
    cases hs
    exact fun handle conn hmem => (h handle conn (List.mem_of_mem_eraseIdx hmem)).mono (Nat.le_refl _) (Nat.le_refl _)

theorem reachable_registryInv (h : Reachable (enabled registryStep) {} r) : RegistryInv r :=
  h.invariant (fun _ _ hmem => by cases hmem) fun _ _ _ hinv _ hs => registryStep_inv hinv hs

end Ids

/-! ### Only the children of the listed listeners -/

/-- **The conn was accepted by a listener of the list.** -/
def Accepted (cllist : ConnListenerList) (conn : HandleConn) : Prop :=
  ∃ id ∈ cllist.list, conn.parent = some (.managed cllist.handle id)

/-- A conn is closed, aborted, killed, or its shutdown callback is called. -/
def Touched (effects : List ConnEffect) : Prop := ∃ e ∈ effects, e ≠ .idle

/-- **No conn is touched but the children of the listed listeners.** -/
def ChildrenOnly (cllist : ConnListenerList) (done : List (HandleConn × List ConnEffect)) : Prop :=
  ∀ conn effects, (conn, effects) ∈ done → Touched effects → Accepted cllist conn

/-- A conn that `ConnHandleConnectionsAbortEx` leaves alone: it is no live listener, and its id is not in the list
while it has something to abort. -/
def AbortSpares (cllist : ConnListenerList) (conn : HandleConn) : Prop :=
  match conn.state with
  | .idle | .synchronous => conn.number = none ∨ conn.listenerID ∉ cllist.list
  | .asynchronousEngine | .asynchronousClient => conn.listenerID ∉ cllist.list
  | .synchronousListener => conn.number = none
  | .asynchronousListener => conn.connectEvent = false
  | .asynchronousEngineComplete | .cached | .free => True

/-- A conn that `ConnHandleConnectionsCloseEx` leaves alone: it has no shutdown callback besides. -/
def CloseSpares (cllist : ConnListenerList) (conn : HandleConn) : Prop :=
  conn.shutdownCallback = none ∧
    match conn.state with
    | .idle | .synchronous | .asynchronousEngine | .asynchronousEngineComplete | .asynchronousClient =>
      conn.number = none ∨ conn.listenerID ∉ cllist.list
    | .synchronousListener => conn.number = none
    | .asynchronousListener => conn.connectEvent = false
    | .cached | .free => True

section Spare

variable {conn : HandleConn} {cllist : ConnListenerList}

theorem not_touched_nil : ¬ Touched [] := by
  rintro ⟨e, he, _⟩
  cases he

theorem touched_cons {e : ConnEffect} (he : e ≠ .idle) (effects : List ConnEffect) : Touched (e :: effects) :=
  ⟨e, List.mem_cons_self, he⟩

/-- A conn that the filter lets through is open. -/
theorem filtered_touched_iff {effects : List ConnEffect} (h : Touched effects) :
    ¬ Touched (if leftAlone (some cllist) conn then [] else effects) ↔ conn.listenerID ∉ cllist.list := by
  have hleft : leftAlone (some cllist) conn = true ↔ conn.listenerID ∉ cllist.list := by
    rw [← isChildOfListener_iff]
    simp [leftAlone]
  split
  next hskip => exact iff_of_true not_touched_nil (hleft.mp hskip)
  next hgo => exact iff_of_false (not_not_intro h) fun hnot => hgo (hleft.mpr hnot)

theorem closeSocket_touched_iff :
    ¬ Touched (if leftAlone (some cllist) conn then [] else closeSocket conn) ↔
      conn.number = none ∨ conn.listenerID ∉ cllist.list := by
  unfold closeSocket
  cases hnumber : conn.number with
  | none =>
    refine iff_of_true ?_ (Or.inl rfl)
    simp only [Option.isSome_none, Bool.false_eq_true, if_false, ite_self]
    exact not_touched_nil
  | some n =>
    simp only [Option.isSome_some, if_true, reduceCtorEq, false_or]
    exact filtered_touched_iff (touched_cons (by simp) _)

theorem synchronousListenerClose_touched_iff :
    ¬ Touched (synchronousListenerClose conn) ↔ conn.number = none := by
  unfold synchronousListenerClose
  cases hnumber : conn.number with
  | none =>
    refine iff_of_true ?_ rfl
    rintro ⟨e, he, hne⟩
    rw [Option.isSome_none, if_neg (by decide), List.nil_append, List.mem_singleton] at he
    exact hne he
  | some n => exact iff_of_false (not_not_intro (touched_cons (by simp) _)) (by simp)

theorem asynchronousListenerShutdown_touched_iff (hstate : conn.state = .asynchronousListener) :
    ¬ Touched (asynchronousListenerShutdown conn) ↔ conn.connectEvent = false := by
  unfold asynchronousListenerShutdown
  cases hevent : conn.connectEvent with
  | false =>
    rw [if_neg (by simp)]
    exact iff_of_true not_touched_nil rfl
  | true =>
    rw [if_pos ⟨rfl, hstate⟩]
    exact iff_of_false (not_not_intro (touched_cons (by simp) _)) (by simp)

/-- **`ConnHandleConnectionsAbortEx` at one conn (proved).** -/
theorem abortConn_spares_iff : ¬ Touched (abortConn (some cllist) conn) ↔ AbortSpares cllist conn := by
  unfold abortConn AbortSpares
  cases hstate : conn.state with
  | free => exact iff_of_true not_touched_nil trivial
  | cached => exact iff_of_true not_touched_nil trivial
  | idle => exact closeSocket_touched_iff
  | synchronous => exact closeSocket_touched_iff
  | asynchronousClient => exact filtered_touched_iff (touched_cons (by simp) _)
  | asynchronousEngine => exact filtered_touched_iff (touched_cons (by simp) _)
  | asynchronousEngineComplete => exact iff_of_true not_touched_nil trivial
  | synchronousListener => exact synchronousListenerClose_touched_iff
  | asynchronousListener => exact asynchronousListenerShutdown_touched_iff hstate

/-- **`ConnHandleConnectionsCloseEx` at one conn (proved).** -/
theorem closeConn_spares_iff : ¬ Touched (closeConn (some cllist) conn) ↔ CloseSpares cllist conn := by
  unfold closeConn CloseSpares
  cases hcallback : conn.shutdownCallback with
  | some answer => exact iff_of_false (not_not_intro (touched_cons (by simp) _)) fun h => by cases h.1
  | none =>
    simp only [Option.isSome_none, Bool.false_eq_true, if_false, List.nil_append, reduceCtorEq, true_and]
    cases hstate : conn.state with
    | free => exact iff_of_true not_touched_nil trivial
    | cached => exact iff_of_true not_touched_nil trivial
    | idle => exact closeSocket_touched_iff
    | synchronous => exact closeSocket_touched_iff
    | asynchronousClient => exact closeSocket_touched_iff
    | asynchronousEngine => exact closeSocket_touched_iff
    | asynchronousEngineComplete => exact closeSocket_touched_iff
    | synchronousListener => exact synchronousListenerClose_touched_iff
    | asynchronousListener => exact asynchronousListenerShutdown_touched_iff hstate

/-- A traversal, from what is done to one conn. -/
theorem childrenOnly_map_iff {f : HandleConn → List ConnEffect} {spares : HandleConn → Prop}
    (hf : ∀ conn, ¬ Touched (f conn) ↔ spares conn) (inUse : List HandleConn) :
    ChildrenOnly cllist (inUse.map fun conn => (conn, f conn)) ↔
      ∀ conn ∈ inUse, ¬ Accepted cllist conn → spares conn := by
  constructor
  · intro h conn hmem hnot
    refine (hf conn).mp fun htouched => hnot ?_
    exact h conn (f conn) (List.mem_map.mpr ⟨conn, hmem, rfl⟩) htouched
  · intro h conn effects hmem htouched
    obtain ⟨conn', hmem', heq⟩ := List.mem_map.mp hmem
    cases heq
    by_contra hnot
    exact (hf conn).mpr (h conn hmem' hnot) htouched

/-- **Who is taken for a child (proved).** -/
theorem ConnKnown.child {r : Registry} {handle : ℕ} (h : ConnKnown r handle conn) :
    (Accepted cllist conn → isChildOfListener conn cllist = true) ∧
      (isChildOfListener conn cllist = true → ¬ Accepted cllist conn → ∃ ref, ref.id ∈ cllist.list ∧
        (conn.self = some ref ∨ conn.parent = some ref ∧ ∀ id, ref ≠ .managed cllist.handle id)) := by
  constructor
  · rintro ⟨id, hid, hparent⟩
    have hself : conn.self = none := h.kinds.resolve_right (by simp [hparent])
    have hlistener := h.listenerID (.managed cllist.handle id) (by simp [hself, hparent])
    rw [isChildOfListener_iff, hlistener]
    exact hid
  · intro hchild hnot
    rw [isChildOfListener_iff] at hchild
    cases hor : conn.self.or conn.parent with
    | none =>
      rw [h.client hor] at hchild
      exact absurd (cllist.pos 0 hchild) (by decide)
    | some ref =>
      have hlistener := h.listenerID ref hor
      rw [hlistener] at hchild
      refine ⟨ref, hchild, ?_⟩
      cases hself : conn.self with
      | some ref' =>
        rw [hself, Option.some_or] at hor
        exact Or.inl hor
      | none =>
        rw [hself, Option.none_or] at hor
        refine Or.inr ⟨hor, fun id hid => hnot ?_⟩
        rw [hid] at hchild hor
        exact ⟨id, hchild, hor⟩

end Spare

/-- **When the children of the listed listeners are all that is touched (proved):** exactly when every other conn of
the handle is spared; the listed children are always known, and the conns taken for them are listeners of a listed id,
or children of a listener that the list's handle has not numbered. -/
theorem childrenOnly_iff {r : Registry} (hr : Reachable (enabled registryStep) {} r) (handle : ℕ)
    (cllist : ConnListenerList) :
    (ChildrenOnly cllist (connHandleConnectionsAbortEx (r.inUse handle) (some cllist)) ↔
      ∀ conn ∈ r.inUse handle, ¬ Accepted cllist conn → AbortSpares cllist conn) ∧
    (ChildrenOnly cllist (connHandleConnectionsCloseEx (r.inUse handle) (some cllist)) ↔
      ∀ conn ∈ r.inUse handle, ¬ Accepted cllist conn → CloseSpares cllist conn) ∧
    ∀ conn ∈ r.inUse handle,
      (Accepted cllist conn → isChildOfListener conn cllist = true) ∧
      (isChildOfListener conn cllist = true → ¬ Accepted cllist conn → ∃ ref, ref.id ∈ cllist.list ∧
        (conn.self = some ref ∨ conn.parent = some ref ∧ ∀ id, ref ≠ .managed cllist.handle id)) := by
  have hinv := reachable_registryInv hr
  refine ⟨childrenOnly_map_iff (fun _ => abortConn_spares_iff) _, childrenOnly_map_iff (fun _ => closeConn_spares_iff) _,
    fun conn hmem => ?_⟩
  obtain ⟨⟨handle', conn'⟩, hconn, rfl⟩ := List.mem_map.mp hmem
  exact (hinv handle' conn' (List.mem_filter.mp hconn).1).child

/-- A managed listener and a client on one handle; the listener's child is aborted, and the client is not. -/
theorem childrenOnly_iff_client : ∃ r : Registry,
    runFrom registryStep {} [.addListener 0, .startListener 0 1, .accept 0, .change 0 ⟨.asynchronousClient, some 5, false,
      none⟩, .alloc 0, .change 0 ⟨.synchronous, some 6, false, none⟩, .free 2] = some r ∧
    ChildrenOnly ⟨0, [1], by decide⟩ (connHandleConnectionsAbortEx (r.inUse 0) (some ⟨0, [1], by decide⟩)) := by
  have hrun : ∃ r : Registry,
      runFrom registryStep {} [.addListener 0, .startListener 0 1, .accept 0, .change 0 ⟨.asynchronousClient, some 5,
        false, none⟩, .alloc 0, .change 0 ⟨.synchronous, some 6, false, none⟩, .free 2] = some r ∧
      r.inUse 0 = [{ state := .synchronous, number := some 6 },
        { state := .asynchronousClient, number := some 5, listenerID := 1, parent := some (.managed 0 1) }] :=
    ⟨_, rfl, by decide⟩
  obtain ⟨r, hr, hinUse⟩ := hrun
  refine ⟨r, hr, ((childrenOnly_iff (reachable_of_runFrom hr) 0 ⟨0, [1], by decide⟩).1).mpr ?_⟩
  intro conn hmem hnot
  rw [hinUse] at hmem
  rcases List.mem_cons.mp hmem with rfl | hmem
  · exact Or.inr (by decide)
  · rw [List.mem_singleton.mp hmem] at hnot
    exact absurd ⟨1, List.mem_singleton_self 1, rfl⟩ hnot

/-- **Other listeners are closed (proved):** a handle has a synchronous listener next to a managed one whose children
are shut down. -/
theorem childrenOnly_fails : ¬ ∀ r : Registry, Reachable (enabled registryStep) {} r →
    ∀ (handle : ℕ) (cllist : ConnListenerList),
      ChildrenOnly cllist (connHandleConnectionsAbortEx (r.inUse handle) (some cllist)) ∧
      ChildrenOnly cllist (connHandleConnectionsCloseEx (r.inUse handle) (some cllist)) := by
  intro h
  have hrun : ∃ r : Registry,
      runFrom registryStep {} [.addListener 0, .listen 0, .change 0 ⟨.synchronousListener, some 3, false, none⟩] =
        some r ∧
      r.inUse 0 = [{
        state := .synchronousListener, number := some 3, listenerID := 1, self := some (.unmanaged 1) }] :=
    ⟨_, rfl, by decide⟩
  obtain ⟨r, hr, hinUse⟩ := hrun
  have honly := (h r (reachable_of_runFrom hr) 0 ⟨0, [1], by decide⟩).1
  rw [hinUse] at honly
  obtain ⟨id, _, hparent⟩ := honly _ _ List.mem_cons_self (touched_cons (e := .close) (by simp) _)
  cases hparent

end Connio
