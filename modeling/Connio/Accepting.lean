import Connio.Lib.DoublyLinked
import Connio.Lib.Transition
import Mathlib.Data.Finset.Basic

/-!
# Accepting a conn

`ConnAcceptEx` and who owns the SOCKs of a handle (`connio.c`, `sockcommon.c`): `_ConnAllocEx` allocates a SOCK for the
new conn, `SocketAccept` another one for the accepted descriptor, and `connFreeEx` undoes the first of them.

* `SockHeap` — the SOCKs that are allocated, the descriptors that are open and the conns in use;
* `socketAccept`, `connAllocEx`, `connFreeEx`, `connAcceptEx` — the functions on it; `none` is the dereference of a NULL
  pointer;
* `AcceptCalls` — what the allocations and the system calls answer;
* `AcceptSound` — nothing leaks, and a failure leaves all as it was;
* `connFreeEx_connAllocEx` — **PROVED**: `connFreeEx` undoes `_ConnAllocEx`;
* `Orphan`, `orphan_kept` — **PROVED**: a SOCK that no conn has is never released;
* `acceptSound_iff` — **PROVED**: an accept is sound only where it does not come to `SocketAccept`.
-/

namespace Connio

open Connio.Lib

/-! ### The heap -/

/-- A SOCK: its descriptor and its listener. -/
structure SockRecord where
  number : Option ℕ
  listenerID : ℕ
  deriving DecidableEq, Repr

/-- What the functions allocate and release. -/
structure SockHeap where
  /-- the SOCKs that are allocated, by address -/
  socks : ℕ → Option SockRecord
  /-- the descriptors that are open -/
  descriptors : Finset ℕ
  /-- `conn->sp` -/
  sp : ℕ → Option ℕ
  /-- `handle->inUse` -/
  inUse : DList ℕ

/-- What the allocations and the system calls of one `ConnAcceptEx` answer: what they give is new. -/
structure AcceptCalls (w : SockHeap) where
  /-- `SocketAlloc` in `_ConnAllocEx` -/
  sock : Option ℕ
  /-- `MemPrivatePoolGetEntry` -/
  entry : Option ℕ
  /-- `SocketAlloc` in `SocketAccept` -/
  childSock : Option ℕ
  /-- `XplIpAccept` -/
  descriptor : Option ℕ
  /-- `XplSocketSetMode` succeeds -/
  nonBlocking : Bool
  sock_new : ∀ a, sock = some a → w.socks a = none
  childSock_new : ∀ a, childSock = some a → w.socks a = none ∧ sock ≠ some a
  descriptor_new : ∀ d, descriptor = some d → d ∉ w.descriptors
  entry_new : ∀ c, entry = some c → c ∉ w.inUse.toList

/-- A conn that listens, and its handle. -/
structure AcceptServer where
  /-- `connHandle->shuttingDown` -/
  shuttingDown : Bool
  /-- `sp->listenerID` -/
  listenerID : ℕ
  deriving DecidableEq, Repr

namespace SockHeap

variable (w : SockHeap)

/-- What is at an address changes. -/
def put (a : ℕ) (r : Option SockRecord) : SockHeap := { w with socks := Function.update w.socks a r }

/-- `conn->sp` changes. -/
def setSp (conn : ℕ) (a : Option ℕ) : SockHeap := { w with sp := Function.update w.sp conn a }

/-- `XplIpAccept` gives the SOCK a descriptor. -/
def accept (a listenerID d : ℕ) : SockHeap :=
  { w with
    socks := Function.update w.socks a (some ⟨some d, listenerID⟩)
    descriptors := insert d w.descriptors }

/-- The descriptor of the SOCK is closed. -/
def close (r : SockRecord) : SockHeap :=
  match r.number with
  | some d => { w with descriptors := w.descriptors.erase d }
  | none => w

/-- `socketRelease`: the SOCK is closed and its memory is freed. -/
def socketRelease (a : ℕ) : SockHeap :=
  match w.socks a with
  | some r => (w.close r).put a none
  | none => w

/-- `SocketAccept` for a listener with this ID. -/
def socketAccept (listenerID : ℕ) (childSock descriptor : Option ℕ) (nonBlocking : Bool) : Option ℕ × SockHeap :=
  match childSock with
  | none => (none, w)
  | some a =>
    let w := w.put a (some ⟨none, listenerID⟩)
    match descriptor with
    | none => (none, w.socketRelease a)
    | some d =>
      let w := w.accept a listenerID d
      if nonBlocking then (some a, w) else (none, w.socketRelease a)

/-- `_ConnAllocEx` with the SOCK `given`, or with a new one. -/
def connAllocEx (given sock entry : Option ℕ) : Option ℕ × SockHeap :=
  match given, sock with
  | none, none => (none, w)
  | none, some a =>
    let w := w.put a (some ⟨none, 0⟩)
    match entry with
    | none => (none, w.socketRelease a)
    | some conn => (some conn, { w.setSp conn (some a) with inUse := w.inUse.append conn })
  | some a, _ =>
    match entry with
    | none => (none, w)
    | some conn => (some conn, { w.setSp conn (some a) with inUse := w.inUse.append conn })

/-- `connFreeEx` of an idle conn. -/
def connFreeEx (conn : ℕ) : Option SockHeap :=
  match w.sp conn with
  -- `connIsStillConnected` reads `conn->sp->number`
  | none => none
  | some a => some { (w.socketRelease a).setSp conn none with inUse := w.inUse.remove conn }

/-- `ConnAcceptEx`: the conn that it returns, and the heap. -/
def connAcceptEx (server : Option AcceptServer) (calls : AcceptCalls w) : Option (Option ℕ × SockHeap) :=
  match server with
  | none => some (none, w)
  | some server =>
    if server.shuttingDown then some (none, w)
    else
      match w.connAllocEx none calls.sock calls.entry with
      | (none, w) => some (none, w)
      | (some child, w) =>
        match w.socketAccept server.listenerID calls.childSock calls.descriptor calls.nonBlocking with
        -- the SOCK that `_ConnAllocEx` has allocated is overwritten
        | (some a, w) => some (some child, w.setSp child (some a))
        | (none, w) => ((w.setSp child none).connFreeEx child).map fun w => (none, w)

end SockHeap

/-! ### What an accept owes -/

/-- **Nothing leaks:** a success adds the accepted SOCK, which the new conn has, and nothing else; a failure does not
dereference a NULL pointer, and leaves the SOCKs, the descriptors and the list as they were. -/
def AcceptSound (w : SockHeap) (server : Option AcceptServer) (calls : AcceptCalls w) : Prop :=
  match w.connAcceptEx server calls with
  | none => False
  | some (none, w') => w'.socks = w.socks ∧ w'.descriptors = w.descriptors ∧ w'.inUse = w.inUse
  | some (some child, w') =>
    ∃ a r, w'.sp child = some a ∧ w'.socks = Function.update w.socks a (some r) ∧
      ∃ d, r.number = some d ∧ calls.descriptor = some d ∧ w'.descriptors = insert d w.descriptors

/-- The call comes to `SocketAccept`. -/
def ComesToAccept {w : SockHeap} (server : Option AcceptServer) (calls : AcceptCalls w) : Prop :=
  (∃ s, server = some s ∧ s.shuttingDown = false) ∧ calls.sock ≠ none ∧ calls.entry ≠ none

/-- `SocketAccept` returns a SOCK. -/
def AcceptCalls.Accepts {w : SockHeap} (calls : AcceptCalls w) : Prop :=
  calls.childSock ≠ none ∧ calls.descriptor ≠ none ∧ calls.nonBlocking = true

/-! ### Releases -/

namespace SockHeap

variable {w : SockHeap} {a conn d listenerID : ℕ}

theorem put_put (r r' : Option SockRecord) : (w.put a r).put a r' = w.put a r' := by
  simp only [put, Function.update_idem]

@[simp] theorem setSp_self (w : SockHeap) (conn : ℕ) (a : Option ℕ) : (w.setSp conn a).sp conn = a :=
  Function.update_self ..

theorem setSp_of_ne {c : ℕ} (h : c ≠ conn) (a : Option ℕ) : (w.setSp conn a).sp c = w.sp c :=
  Function.update_of_ne h _ _

/-- What was not there is not there. -/
theorem put_none (h : w.socks a = none) : w.put a none = w := by
  unfold put
  rw [← h, Function.update_eq_self]

/-- A SOCK without a descriptor is released. -/
theorem socketRelease_put (h : w.socks a = none) :
    (w.put a (some ⟨none, listenerID⟩)).socketRelease a = w := by
  have hself : (w.put a (some ⟨none, listenerID⟩)).socks a = some ⟨none, listenerID⟩ := Function.update_self ..
  unfold socketRelease
  simp only [hself]
  exact (put_put _ _).trans (put_none h)

/-- A SOCK with a new descriptor is released, and the descriptor is closed. -/
theorem socketRelease_accept (h : w.socks a = none) (hd : d ∉ w.descriptors) :
    (w.accept a listenerID d).socketRelease a = w := by
  have hself : (w.accept a listenerID d).socks a = some ⟨some d, listenerID⟩ := Function.update_self ..
  unfold socketRelease
  simp only [hself]
  show SockHeap.mk (Function.update (Function.update w.socks a (some ⟨some d, listenerID⟩)) a none)
    ((insert d w.descriptors).erase d) w.sp w.inUse = w
  rw [Finset.erase_insert hd, Function.update_idem, ← h, Function.update_eq_self]

theorem accept_put (r : Option SockRecord) : (w.put a r).accept a listenerID d = w.accept a listenerID d := by
  simp only [put, accept, Function.update_idem]

/-- **`SocketAccept` (proved)** returns a SOCK with the descriptor, or leaves all as it was. -/
theorem socketAccept_cases (w : SockHeap) (listenerID : ℕ) {childSock descriptor : Option ℕ} (nonBlocking : Bool)
    (hsock : ∀ a, childSock = some a → w.socks a = none) (hd : ∀ d, descriptor = some d → d ∉ w.descriptors) :
    (∃ a d, childSock = some a ∧ descriptor = some d ∧ nonBlocking = true ∧
        w.socketAccept listenerID childSock descriptor nonBlocking =
          (some a, w.accept a listenerID d)) ∨
      (¬ (childSock ≠ none ∧ descriptor ≠ none ∧ nonBlocking = true) ∧
        w.socketAccept listenerID childSock descriptor nonBlocking = (none, w)) := by
  cases childSock with
  | none => exact .inr ⟨fun h => h.1 rfl, rfl⟩
  | some a =>
    have ha := hsock a rfl
    cases descriptor with
    | none =>
      refine .inr ⟨fun h => h.2.1 rfl, ?_⟩
      exact congrArg (none, ·) (socketRelease_put ha)
    | some d =>
      cases nonBlocking with
      | true => exact .inl ⟨a, d, rfl, rfl, rfl, congrArg (some a, ·) (accept_put _)⟩
      | false =>
        refine .inr ⟨fun h => Bool.false_ne_true h.2.2, ?_⟩
        show (none, ((w.put a (some ⟨none, listenerID⟩)).accept a listenerID d).socketRelease a) = _
        rw [accept_put, socketRelease_accept ha (hd d rfl)]

theorem socketRelease_of_ne {b : ℕ} (h : a ≠ b) : (w.socketRelease b).socks a = w.socks a := by
  unfold socketRelease
  split
  next r _ =>
    have hclose : (w.close r).socks = w.socks := by
      unfold close
      split <;> rfl
    show Function.update (w.close r).socks b none a = w.socks a
    rw [Function.update_of_ne h, hclose]
  · rfl

theorem socketRelease_sp (w : SockHeap) (b conn : ℕ) : (w.socketRelease b).sp conn = w.sp conn := by
  unfold socketRelease close
  split
  · split <;> rfl
  · rfl

/-- What `_ConnAllocEx` returns. -/
def allocated (w : SockHeap) (conn a : ℕ) : SockHeap :=
  { (w.put a (some ⟨none, 0⟩)).setSp conn (some a) with inUse := w.inUse.append conn }

/-- **`_ConnAllocEx` (proved)** returns a conn with a SOCK of its own, or leaves all as it was. -/
theorem connAllocEx_cases (w : SockHeap) {sock : Option ℕ} (entry : Option ℕ)
    (hsock : ∀ a, sock = some a → w.socks a = none) :
    (∃ a conn, sock = some a ∧ entry = some conn ∧ w.connAllocEx none sock entry = (some conn, w.allocated conn a)) ∨
      (¬ (sock ≠ none ∧ entry ≠ none) ∧ w.connAllocEx none sock entry = (none, w)) := by
  cases sock with
  | none => exact .inr ⟨fun h => h.1 rfl, rfl⟩
  | some a =>
    cases entry with
    | none => exact .inr ⟨fun h => h.2 rfl, congrArg (none, ·) (socketRelease_put (hsock a rfl))⟩
    | some conn => exact .inl ⟨a, conn, rfl, rfl, rfl⟩

/-- **`connFreeEx` undoes `_ConnAllocEx` (proved).** -/
theorem connFreeEx_connAllocEx {l : List ℕ} (ha : w.socks a = none) (hl : w.inUse.Represents l) (hconn : conn ∉ l) :
    ∃ w', (w.allocated conn a).connFreeEx conn = some w' ∧ w'.socks = w.socks ∧ w'.descriptors = w.descriptors ∧
      w'.inUse.Represents l := by
  have hsp : (w.allocated conn a).sp conn = some a := Function.update_self ..
  have hself : (w.allocated conn a).socks a = some ⟨none, 0⟩ := Function.update_self ..
  have hremoved : ((w.inUse.append conn).remove conn).Represents l := by
    have h := DList.represents_remove (DList.represents_append hl hconn)
      (List.mem_append_right l List.mem_cons_self)
    rwa [List.erase_append_right _ hconn, List.erase_cons_head, List.append_nil] at h
  unfold connFreeEx
  simp only [hsp, socketRelease, hself]
  refine ⟨_, rfl, ?_, rfl, hremoved⟩
  exact (Function.update_idem _ _ _).trans (by rw [← ha, Function.update_eq_self])

end SockHeap

/-! ### The call -/

section Call

variable {w w' : SockHeap} {server : Option AcceptServer} {calls : AcceptCalls w}

/-- **What `ConnAcceptEx` does (proved):** nothing; or its conn has the second of two SOCKs; or it dereferences a NULL
pointer. -/
theorem connAcceptEx_cases (server : Option AcceptServer) (calls : AcceptCalls w) :
    (¬ ComesToAccept server calls ∧ w.connAcceptEx server calls = some (none, w)) ∨
      (ComesToAccept server calls ∧ calls.Accepts ∧ ∃ a conn b d listenerID, calls.sock = some a ∧
        calls.entry = some conn ∧ calls.childSock = some b ∧ calls.descriptor = some d ∧
        w.connAcceptEx server calls =
          some (some conn, ((w.allocated conn a).accept b listenerID d).setSp conn (some b))) ∨
      (ComesToAccept server calls ∧ ¬ calls.Accepts ∧ w.connAcceptEx server calls = none) := by
  cases server with
  | none =>
    refine .inl ⟨fun h => ?_, rfl⟩
    obtain ⟨_, hs, _⟩ := h.1
    cases hs
  | some server =>
    cases hdown : server.shuttingDown with
    | true =>
      refine .inl ⟨fun h => ?_, by simp [SockHeap.connAcceptEx, hdown]⟩
      obtain ⟨s, hs, hs'⟩ := h.1
      cases hs
      rw [hdown] at hs'
      cases hs'
    | false =>
      rcases w.connAllocEx_cases calls.entry calls.sock_new with ⟨a, conn, ha, hconn, halloc⟩ | ⟨hnot, halloc⟩
      · have hcomes : ComesToAccept (some server) calls := by
          refine ⟨⟨server, rfl, hdown⟩, ?_, ?_⟩
          · rw [ha]
            exact Option.some_ne_none a
          · rw [hconn]
            exact Option.some_ne_none conn
        have hchild : ∀ b, calls.childSock = some b → (w.allocated conn a).socks b = none := by
          intro b hb
          obtain ⟨hnew, hne⟩ := calls.childSock_new b hb
          have hba : b ≠ a := fun h => hne (by rw [ha, h])
          exact (Function.update_of_ne hba _ _).trans hnew
        rcases (w.allocated conn a).socketAccept_cases server.listenerID calls.nonBlocking hchild
          (fun d hd => calls.descriptor_new d hd) with ⟨b, d, hb, hd, hmode, haccept⟩ | ⟨hnot, haccept⟩
        · have haccepts : calls.Accepts := by
            refine ⟨?_, ?_, hmode⟩
            · rw [hb]
              exact Option.some_ne_none b
            · rw [hd]
              exact Option.some_ne_none d
          refine .inr (.inl ⟨hcomes, haccepts, a, conn, b, d, server.listenerID, ha, hconn, hb, hd, ?_⟩)
          simp only [SockHeap.connAcceptEx, hdown, Bool.false_eq_true, if_false, halloc, haccept]
        · refine .inr (.inr ⟨hcomes, hnot, ?_⟩)
          have hsp : ((w.allocated conn a).setSp conn none).sp conn = none := Function.update_self ..
          simp only [SockHeap.connAcceptEx, hdown, Bool.false_eq_true, if_false, halloc, haccept, SockHeap.connFreeEx, hsp,
            Option.map_none]
      · refine .inl ⟨fun h => hnot h.2, ?_⟩
        simp only [SockHeap.connAcceptEx, hdown, Bool.false_eq_true, if_false, halloc]

/-! ### What is never released -/

/-- An allocated SOCK that no conn has. -/
def Orphan (w : SockHeap) (a : ℕ) : Prop := w.socks a ≠ none ∧ ∀ conn, w.sp conn ≠ some a

/-- A conn that is accepted, or freed. -/
inductive AcceptMove where
  | accept (server : Option AcceptServer)
  | free (conn : ℕ)

/-- **One step** of the consumers of the handle. -/
def acceptStep (w : SockHeap) : AcceptMove → SockHeap → Prop
  | .accept server, w' => ∃ (calls : AcceptCalls w) (conn : Option ℕ), w.connAcceptEx server calls = some (conn, w')
  | .free conn, w' => w.connFreeEx conn = some w'

/-- **A success leaves an orphan (proved):** the SOCK that `_ConnAllocEx` has allocated. -/
theorem connAcceptEx_orphan {conn : ℕ} (hfresh : ∀ a conn, w.sp conn = some a → w.socks a ≠ none)
    (h : w.connAcceptEx server calls = some (some conn, w')) : ∃ a, calls.sock = some a ∧ Orphan w' a := by
  rcases connAcceptEx_cases server calls with ⟨_, hcall⟩ | ⟨_, _, a, conn', b, d, id, ha, _, hb, _, hcall⟩ |
    ⟨_, _, hcall⟩
  · rw [hcall] at h
    cases h
  · rw [hcall] at h
    cases h
    have hne : a ≠ b := fun heq => (calls.childSock_new b hb).2 (by rw [ha, heq])
    refine ⟨a, ha, ?_, fun c hc => ?_⟩
    · show Function.update (Function.update w.socks a _) b _ a ≠ none
      rw [Function.update_of_ne hne, Function.update_self]
      exact Option.some_ne_none _
    · by_cases hcc : c = conn
      · rw [hcc] at hc
        rw [SockHeap.setSp_self] at hc
        exact hne (Option.some.inj hc).symm
      · rw [SockHeap.setSp_of_ne hcc] at hc
        exact hfresh a c ((SockHeap.setSp_of_ne hcc _).symm.trans hc) (calls.sock_new a ha)
  · rw [hcall] at h
    cases h

/-- One step keeps an orphan. -/
theorem orphan_step {a : ℕ} {m : AcceptMove} (horphan : Orphan w a) (hstep : acceptStep w m w') : Orphan w' a := by
  obtain ⟨hsock, hsp⟩ := horphan
  cases m with
  | accept server =>
    obtain ⟨calls, conn, hcall⟩ := hstep
    rcases connAcceptEx_cases server calls with ⟨_, hcall'⟩ | ⟨_, _, b, conn', b', d, id, hb, _, hb', _, hcall'⟩ |
      ⟨_, _, hcall'⟩
    · rw [hcall'] at hcall
      cases hcall
      exact ⟨hsock, hsp⟩
    · rw [hcall'] at hcall
      cases hcall
      have hne : a ≠ b := fun heq => hsock (heq ▸ calls.sock_new b hb)
      have hne' : a ≠ b' := fun heq => hsock (heq ▸ (calls.childSock_new b' hb').1)
      refine ⟨?_, fun c hc => ?_⟩
      · show Function.update (Function.update w.socks b _) b' _ a ≠ none
        rw [Function.update_of_ne hne', Function.update_of_ne hne]
        exact hsock
      · by_cases hcc : c = conn'
        · rw [hcc] at hc
          rw [SockHeap.setSp_self] at hc
          exact hne' (Option.some.inj hc).symm
        · rw [SockHeap.setSp_of_ne hcc] at hc
          exact hsp c ((SockHeap.setSp_of_ne hcc _).symm.trans hc)
    · rw [hcall'] at hcall
      cases hcall
  | free conn =>
    simp only [acceptStep, SockHeap.connFreeEx] at hstep
    split at hstep
    · cases hstep
    next b hb =>
      cases hstep
      have hne : a ≠ b := fun heq => hsp conn (by rw [hb, heq])
      refine ⟨?_, fun c hc => ?_⟩
      · show (w.socketRelease b).socks a ≠ none
        rw [SockHeap.socketRelease_of_ne hne]
        exact hsock
      · have hc' : ((w.socketRelease b).setSp conn none).sp c = some a := hc
        by_cases hcc : c = conn
        · rw [hcc, SockHeap.setSp_self] at hc'
          cases hc'
        · rw [SockHeap.setSp_of_ne hcc, SockHeap.socketRelease_sp] at hc'
          exact hsp c hc'

/-- **What no conn has is never released (proved).** -/
theorem orphan_kept {a : ℕ} (horphan : Orphan w a) (h : Reachable acceptStep w w') : Orphan w' a :=
  h.invariant (P := fun w => Orphan w a) horphan fun _ _ _ ho _ hstep => orphan_step ho hstep

/-! ### The result -/

/-- **An accept is sound exactly when it does not come to `SocketAccept` (proved).** -/
theorem acceptSound_iff (w : SockHeap) (server : Option AcceptServer) (calls : AcceptCalls w) :
    AcceptSound w server calls ↔ ¬ ComesToAccept server calls := by
  unfold AcceptSound
  rcases connAcceptEx_cases server calls with ⟨hnot, hcall⟩ | ⟨hcomes, _, a, conn, b, d, id, ha, _, hb, _, hcall⟩ |
    ⟨hcomes, _, hcall⟩
  · rw [hcall]
    exact iff_of_true ⟨rfl, rfl, rfl⟩ hnot
  · rw [hcall]
    refine iff_of_false ?_ (not_not_intro hcomes)
    rintro ⟨b', r, hsp, hsocks, _⟩
    have hb' : b = b' := Option.some.inj ((SockHeap.setSp_self ..).symm.trans hsp)
    -- the first SOCK is still there
    have hne : a ≠ b := fun heq => (calls.childSock_new b hb).2 (by rw [ha, heq])
    have hat := congrFun hsocks a
    rw [← hb', Function.update_of_ne hne, calls.sock_new a ha] at hat
    have hleft : Function.update (Function.update w.socks a (some ⟨none, 0⟩)) b (some ⟨some d, id⟩) a = none := hat
    rw [Function.update_of_ne hne, Function.update_self] at hleft
    cases hleft
  · rw [hcall]
    exact iff_of_false id (not_not_intro hcomes)

end Call

/-- A handle without conns. -/
def noSocks : SockHeap where
  socks := fun _ => none
  descriptors := ∅
  sp := fun _ => none
  inUse := DList.empty

/-- All allocations work, and `accept` gives descriptor 5. -/
def acceptFive : AcceptCalls noSocks where
  sock := some 0
  entry := some 0
  childSock := some 1
  descriptor := some 5
  nonBlocking := true
  sock_new := fun _ _ => rfl
  childSock_new := fun a ha => ⟨rfl, by
    cases ha
    decide⟩
  descriptor_new := fun d _ => Finset.notMem_empty d
  entry_new := fun _ _ => List.not_mem_nil

/-- **An accepted conn leaks a SOCK.** -/
theorem accept_leaks :
    ¬ ∀ (w : SockHeap) (server : Option AcceptServer) (calls : AcceptCalls w), AcceptSound w server calls := by
  intro h
  obtain ⟨b, r, hsp, hsocks, _⟩ := h noSocks (some ⟨false, 1⟩) acceptFive
  have hb : (1 : ℕ) = b := Option.some.inj hsp
  have hat := congrFun hsocks 0
  rw [← hb] at hat
  cases hat

end Connio
