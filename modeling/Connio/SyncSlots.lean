import Connio.Active
import Connio.Lib.Transition

/-!
# The synchronous slot protocol

A synchronous call on a conn inserts its event into an active slot, works on it without the event lock,
and removes it (`connio.c`, `Synchronous*EventInsert` / `Synchronous*EventRemove`).  Any number of threads
do this on one conn.

* `synchronousConnectEventInsert` ... `synchronousSendEventRemove` — the six functions; `Except.error`
  is the FALSE return with the `errno` it sets;
* `SyncSystem`, `syncStep` — the calls in progress on one conn, each holding one slot;
* `SlotProtocol` — a remove succeeds and empties the slot its insert filled, the conn is idle only when
  no slot is occupied, and an occupied connect slot is alone;
* `syncStep_slotProtocol` — one step from a state that keeps the protocol keeps it exactly when the
  step is not one of the two unguarded receive steps;
* `reachable_slotProtocol` — every run without such a step keeps the protocol, and such a step breaks it.
-/

namespace Connio

open Connio.Lib

/-! ### The six functions -/

def synchronousConnectEventInsert (c : Conn) (e : EventId) : Except Errno Conn :=
  if c.state = .idle then
    if c.activeEvent.connect = none ∧ c.activeEvent.receive = none ∧ c.activeEvent.send = none then
      .ok (slotSet (connChangeState c .synchronous) .connect e)
    else .error Errno.ebusy
  else .error Errno.econniomode

def synchronousConnectEventRemove (c : Conn) (e : EventId) : Except Errno Conn :=
  if c.state = .synchronous then
    if c.activeEvent.connect = some e then
      .ok (connChangeState (slotClear c .connect) .idle)
    else .error Errno.einval
  else .error Errno.econniomode

/-- The Boolean is TRUE when buffered send data is handed back. -/
def synchronousReceiveEventInsert (c : Conn) (e : EventId) : Except Errno (Bool × Conn) :=
  if c.state = .idle ∨ c.state = .synchronous then
    if c.activeEvent.connect = none ∧ c.activeEvent.receive = none then
      let (bufferedSendData, c') := bufferedSendDataGet (connChangeState c .synchronous)
      -- the connect slot keeps other reads and writes out while the buffered data is flushed
      .ok (bufferedSendData, slotSet c' (if bufferedSendData then .connect else .receive) e)
    else .error Errno.ebusy
  else .error Errno.econniomode

def synchronousReceiveEventRemove (c : Conn) (e : EventId) (haveConnectLock : Bool) :
    Except Errno Conn :=
  if c.state = .synchronous then
    if haveConnectLock = true ∧ c.activeEvent.connect = some e then
      .ok (connChangeState (slotClear c .connect) .idle)
    else if haveConnectLock = false ∧ c.activeEvent.receive = some e then
      .ok (connChangeState (slotClear c .receive) .idle)
    else .error Errno.einval
  else .error Errno.econniomode

def synchronousSendEventInsert (c : Conn) (e : EventId) : Except Errno Conn :=
  if c.state = .idle ∨ c.state = .synchronous then
    if c.activeEvent.connect = none ∧ c.activeEvent.send = none then
      .ok (slotSet (connChangeState c .synchronous) .send e)
    else .error Errno.ebusy
  else .error Errno.econniomode

def synchronousSendEventRemove (c : Conn) (e : EventId) : Except Errno Conn :=
  if c.state = .synchronous then
    if c.activeEvent.send = some e then
      let c' := slotClear c .send
      .ok (if c'.activeEvent.receive = none then connChangeState c' .idle else c')
    else .error Errno.einval
  else .error Errno.econniomode

/-! ### The calls in progress -/

/-- A successful insert whose remove is still to come. -/
structure SyncCall where
  kind : ConnEventClass
  event : EventId
  haveConnectLock : Bool
  deriving DecidableEq, Repr

/-- The slot the insert filled. -/
def SyncCall.slot (h : SyncCall) : ConnEventClass :=
  match h.kind, h.haveConnectLock with
  | .receive, true => .connect
  | k, _ => k

/-- The matching remove. -/
def SyncCall.remove (c : Conn) (h : SyncCall) : Except Errno Conn :=
  match h.kind with
  | .connect => synchronousConnectEventRemove c h.event
  | .receive => synchronousReceiveEventRemove c h.event h.haveConnectLock
  | .send => synchronousSendEventRemove c h.event

/-- The matching insert, with the call it leaves in progress. -/
def SyncCall.insert (c : Conn) (kind : ConnEventClass) (e : EventId) :
    Except Errno (SyncCall × Conn) :=
  match kind with
  | .connect => (synchronousConnectEventInsert c e).map fun c' => (⟨.connect, e, false⟩, c')
  | .receive => (synchronousReceiveEventInsert c e).map fun p => (⟨.receive, e, p.1⟩, p.2)
  | .send => (synchronousSendEventInsert c e).map fun c' => (⟨.send, e, false⟩, c')

structure SyncSystem where
  conn : Conn
  calls : List SyncCall

inductive SyncAction where
  /-- a thread enters a synchronous call with a stack event -/
  | insert (kind : ConnEventClass) (e : EventId)
  /-- a thread leaves the call it is in -/
  | remove (h : SyncCall)
  /-- a write leaves this many octets in the send buffer, or the buffer is gone -/
  | buffer (used : Option ℕ)
  deriving DecidableEq, Repr

/-- One thread takes the event lock once.  A failed call changes nothing and is over. -/
def syncStep (s : SyncSystem) : SyncAction → Option SyncSystem
  | .insert kind e =>
    if ∀ h ∈ s.calls, h.event ≠ e then
      match SyncCall.insert s.conn kind e with
      | .ok (h, c) => some ⟨c, h :: s.calls⟩
      | .error _ => some s
    else none
  | .remove h =>
    if h ∈ s.calls then
      match SyncCall.remove s.conn h with
      | .ok c => some ⟨c, s.calls.erase h⟩
      | .error _ => some { s with calls := s.calls.erase h }
    else none
  | .buffer used => some { s with conn := { s.conn with sendBuffer := used } }

/-- An idle conn with empty slots. -/
def SyncSystem.Initial (s : SyncSystem) : Prop :=
  s.conn.state = .idle ∧ (∀ k, s.conn.activeEvent.get k = none) ∧ s.calls = []

/-! ### The protocol -/

/-- **The slot protocol.** -/
structure SlotProtocol (s : SyncSystem) : Prop where
  /-- every remove returns TRUE and empties exactly the slot its insert filled -/
  remove_ok : ∀ h ∈ s.calls, s.conn.activeEvent.get h.slot = some h.event ∧
    ∃ c, SyncCall.remove s.conn h = .ok c ∧ c.activeEvent = s.conn.activeEvent.set h.slot none
  /-- an idle conn has no operation in progress -/
  idle_empty : s.conn.state = .idle → ∀ k, s.conn.activeEvent.get k = none
  /-- an operation in the connect slot is alone -/
  connect_alone : s.conn.activeEvent.connect ≠ none →
    s.conn.activeEvent.receive = none ∧ s.conn.activeEvent.send = none

/-- The two receive steps take no notice of the send slot: an insert that hands back buffered data
occupies the connect slot beside an active send, and a remove from the receive slot makes the conn idle
beside one.  A step is guarded when it is neither. -/
def SyncGuarded (s : SyncSystem) : SyncAction → Prop
  | .insert .receive _ =>
    s.conn.activeEvent.send ≠ none → s.conn.activeEvent.connect = none →
      s.conn.activeEvent.receive = none → (bufferedSendDataGet s.conn).1 = false
  | .remove h => h.kind = .receive → s.conn.activeEvent.send = none
  | _ => True

/-! ### What one call does -/

/-- The calls in progress hold distinct slots, and the state says whether a slot is occupied. -/
structure SyncInv (s : SyncSystem) : Prop where
  state_eq : s.conn.state = .idle ∨ s.conn.state = .synchronous
  idle_empty : s.conn.state = .idle → ∀ k, s.conn.activeEvent.get k = none
  connect_alone : s.conn.activeEvent.connect ≠ none →
    s.conn.activeEvent.receive = none ∧ s.conn.activeEvent.send = none
  holds : ∀ h ∈ s.calls, s.conn.activeEvent.get h.slot = some h.event
  lock_receive : ∀ h ∈ s.calls, h.haveConnectLock = true → h.kind = .receive
  slots_nodup : (s.calls.map SyncCall.slot).Nodup

theorem bufferedSendDataGet_frame (c : Conn) :
    (bufferedSendDataGet c).2.state = c.state ∧
      (bufferedSendDataGet c).2.activeEvent = c.activeEvent := by
  unfold bufferedSendDataGet
  split <;> exact ⟨rfl, rfl⟩

/-- What a successful insert found and did. -/
theorem insert_ok {c c' : Conn} {kind : ConnEventClass} {e : EventId} {h : SyncCall}
    (hok : SyncCall.insert c kind e = .ok (h, c')) :
    h.kind = kind ∧ h.event = e ∧ c'.state = .synchronous ∧
      c'.activeEvent = c.activeEvent.set h.slot (some e) ∧ c.activeEvent.connect = none ∧
      c.activeEvent.get kind = none ∧ (kind = .connect → ∀ k, c.activeEvent.get k = none) ∧
      (h.haveConnectLock = true ↔ kind = .receive ∧ (bufferedSendDataGet c).1 = true) := by
  cases kind with
  | connect =>
    simp only [SyncCall.insert, synchronousConnectEventInsert] at hok
    split_ifs at hok with hst hempty
    · obtain ⟨hc, hr, hs⟩ := hempty
      cases hok
      refine ⟨rfl, rfl, rfl, rfl, hc, hc, ?_, by simp⟩
      intro _ k
      cases k <;> assumption
    all_goals cases hok
  | receive =>
    have hframe := bufferedSendDataGet_frame (connChangeState c .synchronous)
    have hdata : (bufferedSendDataGet (connChangeState c .synchronous)).1
        = (bufferedSendDataGet c).1 := by
      unfold bufferedSendDataGet connChangeState
      cases c.sendBuffer <;> rfl
    simp only [SyncCall.insert, synchronousReceiveEventInsert] at hok
    by_cases hst : c.state = .idle ∨ c.state = .synchronous
    · by_cases hempty : c.activeEvent.connect = none ∧ c.activeEvent.receive = none
      · obtain ⟨hc, hr⟩ := hempty
        rw [if_pos hst, if_pos ⟨hc, hr⟩] at hok
        generalize hb : bufferedSendDataGet (connChangeState c .synchronous) = b at hok hframe hdata
        obtain ⟨data, c₁⟩ := b
        cases hok
        refine ⟨rfl, rfl, hframe.1, ?_, hc, hr, by simp, by simp [← hdata]⟩
        rw [slotSet, show c₁.activeEvent = c.activeEvent from hframe.2]
        cases data <;> rfl
      · rw [if_pos hst, if_neg hempty] at hok
        cases hok
    · rw [if_neg hst] at hok
      cases hok
  | send =>
    simp only [SyncCall.insert, synchronousSendEventInsert] at hok
    split_ifs at hok with hst hempty
    · obtain ⟨hc, hs⟩ := hempty
      cases hok
      exact ⟨rfl, rfl, rfl, rfl, hc, hs, by simp, by simp⟩
    all_goals cases hok

/-- An insert fills a slot that was empty. -/
theorem insert_slot_free {c c' : Conn} {kind : ConnEventClass} {e : EventId} {h : SyncCall}
    (hok : SyncCall.insert c kind e = .ok (h, c')) : c.activeEvent.get h.slot = none := by
  obtain ⟨hkind, _, _, _, hconnect, hfree, _, hlock⟩ := insert_ok hok
  by_cases hl : h.haveConnectLock = true
  · rw [SyncCall.slot, hkind, (hlock.mp hl).1, hl]
    exact hconnect
  · rw [SyncCall.slot, hkind, Bool.eq_false_iff.mpr hl]
    cases kind <;> exact hfree

section Holding

variable {c c' : Conn} {kind : ConnEventClass} {e : EventId} {h : SyncCall} {calls : List SyncCall}

/-- No call in progress is in the slot that an insert fills. -/
theorem insert_slot_ne (hok : SyncCall.insert c kind e = .ok (h, c'))
    (holds : ∀ h' ∈ calls, c.activeEvent.get h'.slot = some h'.event) : ∀ h' ∈ calls, h'.slot ≠ h.slot := by
  intro h' hh' heq
  have hslot := holds h' hh'
  rw [heq, insert_slot_free hok] at hslot
  cases hslot

/-- After an insert each call is in its slot. -/
theorem insert_holds (hok : SyncCall.insert c kind e = .ok (h, c'))
    (holds : ∀ h' ∈ calls, c.activeEvent.get h'.slot = some h'.event) :
    ∀ h' ∈ h :: calls, c'.activeEvent.get h'.slot = some h'.event := by
  obtain ⟨_, hevent, _, hactive, _⟩ := insert_ok hok
  intro h' hh'
  rw [hactive]
  rcases List.mem_cons.mp hh' with rfl | hh'
  · rw [Slots.get_set_self, hevent]
  · rw [Slots.get_set_of_ne _ (insert_slot_ne hok holds h' hh')]
    exact holds h' hh'

theorem insert_slots_nodup (hok : SyncCall.insert c kind e = .ok (h, c'))
    (holds : ∀ h' ∈ calls, c.activeEvent.get h'.slot = some h'.event) (hslots : (calls.map SyncCall.slot).Nodup) :
    ((h :: calls).map SyncCall.slot).Nodup := by
  refine List.nodup_cons.mpr ⟨fun hmem => ?_, hslots⟩
  obtain ⟨h', hh', heq⟩ := List.mem_map.mp hmem
  exact insert_slot_ne hok holds h' hh' heq

/-- No other call is in the slot of a call that leaves. -/
theorem erase_slot_ne (hslots : (calls.map SyncCall.slot).Nodup) (hh : h ∈ calls) :
    ∀ h' ∈ calls.erase h, h'.slot ≠ h.slot := by
  have hperm := (List.perm_cons_erase hh).map SyncCall.slot
  have hnodup := List.nodup_cons.mp (hperm.nodup_iff.mp hslots)
  exact fun h' hh' heq => hnodup.1 (List.mem_map.mpr ⟨h', hh', heq⟩)

/-- When a call has left and its slot is empty, each other call is in its slot. -/
theorem erase_holds (hslots : (calls.map SyncCall.slot).Nodup) (hh : h ∈ calls)
    (holds : ∀ h' ∈ calls, c.activeEvent.get h'.slot = some h'.event) :
    ∀ h' ∈ calls.erase h, (c.activeEvent.set h.slot none).get h'.slot = some h'.event := by
  intro h' hh'
  rw [Slots.get_set_of_ne _ (erase_slot_ne hslots hh h' hh')]
  exact holds h' (List.mem_of_mem_erase hh')

end Holding

/-- A remove of a call in progress succeeds; it makes the conn idle unless it is the remove of a send
beside an active receive. -/
theorem remove_ok {s : SyncSystem} (hinv : SyncInv s) {h : SyncCall} (hh : h ∈ s.calls) :
    ∃ c, SyncCall.remove s.conn h = .ok c ∧
      c.activeEvent = s.conn.activeEvent.set h.slot none ∧
      c.state = if h.kind = .send ∧ s.conn.activeEvent.receive ≠ none then .synchronous
        else .idle := by
  have hslot := hinv.holds h hh
  have hlock := hinv.lock_receive h hh
  have hst : s.conn.state = .synchronous := by
    rcases hinv.state_eq with hidle | hsync
    · rw [hinv.idle_empty hidle h.slot] at hslot
      cases hslot
    · exact hsync
  obtain ⟨kind, e, lock⟩ := h
  cases kind with
  | connect =>
    have hlock' : lock = false := by
      by_contra hne
      simpa using hlock (by simpa using hne)
    subst hlock'
    refine ⟨connChangeState (slotClear s.conn .connect) .idle, ?_, rfl, by simp [connChangeState]⟩
    simp only [SyncCall.remove, synchronousConnectEventRemove, if_pos hst]
    rw [if_pos (show s.conn.activeEvent.connect = some e from hslot)]
  | receive =>
    cases lock with
    | true =>
      refine ⟨connChangeState (slotClear s.conn .connect) .idle, ?_, rfl, by simp [connChangeState]⟩
      simp only [SyncCall.remove, synchronousReceiveEventRemove, if_pos hst]
      rw [if_pos ⟨trivial, show s.conn.activeEvent.connect = some e from hslot⟩]
    | false =>
      refine ⟨connChangeState (slotClear s.conn .receive) .idle, ?_, rfl, by simp [connChangeState]⟩
      simp only [SyncCall.remove, synchronousReceiveEventRemove, if_pos hst]
      rw [if_neg (by simp), if_pos ⟨trivial, show s.conn.activeEvent.receive = some e from hslot⟩]
  | send =>
    have hlock' : lock = false := by
      by_contra hne
      simpa using hlock (by simpa using hne)
    subst hlock'
    have hsend : s.conn.activeEvent.send = some e := hslot
    simp only [SyncCall.remove, synchronousSendEventRemove, if_pos hst, if_pos hsend]
    refine ⟨_, rfl, ?_, ?_⟩
    · split <;> rfl
    · by_cases hr : s.conn.activeEvent.receive = none
      · simp [slotClear, Slots.set, hr, connChangeState]
      · simp [slotClear, Slots.set, hr, hst]

theorem SyncInv.slotProtocol {s : SyncSystem} (hinv : SyncInv s) : SlotProtocol s where
  remove_ok h hh := by
    obtain ⟨c, hok, hact, _⟩ := remove_ok hinv hh
    exact ⟨hinv.holds h hh, c, hok, hact⟩
  idle_empty := hinv.idle_empty
  connect_alone := hinv.connect_alone

theorem SyncSystem.Initial.syncInv {s : SyncSystem} (h0 : s.Initial) : SyncInv s := by
  obtain ⟨hst, hempty, hcalls⟩ := h0
  refine ⟨.inl hst, fun _ => hempty, fun hne => ?_, ?_, ?_, ?_⟩
  · exact absurd (hempty .connect) hne
  all_goals simp [hcalls]

/-! ### One step -/

theorem syncInv_of_insert {s : SyncSystem} (hinv : SyncInv s) {kind : ConnEventClass} {e : EventId}
    {h : SyncCall} {c : Conn} (hok : SyncCall.insert s.conn kind e = .ok (h, c))
    (hguard : SyncGuarded s (.insert kind e)) : SyncInv ⟨c, h :: s.calls⟩ := by
  obtain ⟨hkind, hev, hst, hact, hconn, hfree, hall, hlock⟩ := insert_ok hok
  refine ⟨.inr hst, ?_, ?_, insert_holds hok hinv.holds, ?_, insert_slots_nodup hok hinv.holds hinv.slots_nodup⟩
  · intro hidle
    rw [show c.state = .synchronous from hst] at hidle
    cases hidle
  · -- the connect slot is filled by a connect insert or by a receive insert with buffered data
    show c.activeEvent.connect ≠ none → c.activeEvent.receive = none ∧ c.activeEvent.send = none
    rw [hact]
    intro hne
    have hcs : h.slot = .connect := by
      by_contra hns
      apply hne
      show (s.conn.activeEvent.set h.slot (some e)).get .connect = none
      rw [Slots.get_set_of_ne _ (Ne.symm hns)]
      exact hconn
    rw [hcs]
    show s.conn.activeEvent.receive = none ∧ s.conn.activeEvent.send = none
    cases kind with
    | connect => exact ⟨hall rfl .receive, hall rfl .send⟩
    | receive =>
      refine ⟨hfree, ?_⟩
      by_contra hsend
      have hnodata := hguard hsend hconn hfree
      have hl : h.haveConnectLock = true := by
        by_contra hl
        rw [SyncCall.slot, hkind] at hcs
        simp_all
      rw [(hlock.mp hl).2] at hnodata
      cases hnodata
    | send =>
      rw [SyncCall.slot, hkind] at hcs
      simp at hcs
  · intro h' hh' hl
    rcases List.mem_cons.mp hh' with rfl | hh'
    · rw [hkind]
      exact (hlock.mp hl).1
    · exact hinv.lock_receive h' hh' hl

theorem syncInv_of_remove {s : SyncSystem} (hinv : SyncInv s) {h : SyncCall} (hh : h ∈ s.calls)
    {c : Conn} (hact : c.activeEvent = s.conn.activeEvent.set h.slot none)
    (hst : c.state = if h.kind = .send ∧ s.conn.activeEvent.receive ≠ none then .synchronous else .idle)
    (hguard : SyncGuarded s (.remove h)) : SyncInv ⟨c, s.calls.erase h⟩ := by
  have hslot : s.conn.activeEvent.get h.slot ≠ none := by
    rw [hinv.holds h hh]
    simp
  refine ⟨?_, ?_, ?_, ?_, ?_, ?_⟩
  · show c.state = .idle ∨ c.state = .synchronous
    rw [hst]
    split <;> simp
  · -- whichever operation finishes last leaves three empty slots
    intro hidle k
    show c.activeEvent.get k = none
    have hnot : ¬ (h.kind = .send ∧ s.conn.activeEvent.receive ≠ none) := by
      intro hsync
      rw [show c.state = .idle from hidle, if_pos hsync] at hst
      cases hst
    rw [hact]
    have hempty : ∀ k, k ≠ h.slot → s.conn.activeEvent.get k = none := by
      intro k hk
      obtain ⟨kind, e, lock⟩ := h
      have halone := hinv.connect_alone
      have hlock := hinv.lock_receive _ hh
      cases kind <;> cases lock <;> cases k <;>
        simp_all [SyncCall.slot, Slots.get, SyncGuarded]
    by_cases hk : k = h.slot
    · rw [hk, Slots.get_set_self]
    · rw [Slots.get_set_of_ne _ hk]
      exact hempty k hk
  · show c.activeEvent.connect ≠ none → c.activeEvent.receive = none ∧ c.activeEvent.send = none
    rw [hact]
    intro hne
    have halone : s.conn.activeEvent.receive = none ∧ s.conn.activeEvent.send = none := by
      apply hinv.connect_alone
      intro hc
      apply hne
      cases h.slot <;> simp [Slots.set, hc]
    have hcs : h.slot = .connect := by
      revert hslot
      cases h.slot <;> simp [Slots.get, halone]
    rw [hcs] at hne
    exact absurd rfl hne
  · show ∀ h' ∈ s.calls.erase h, c.activeEvent.get h'.slot = some h'.event
    rw [hact]
    exact erase_holds hinv.slots_nodup hh hinv.holds
  · exact fun h' hh' => hinv.lock_receive h' (List.mem_of_mem_erase hh')
  · exact hinv.slots_nodup.sublist ((List.erase_sublist).map _)

/-- A step that is not guarded breaks the protocol. -/
theorem not_slotProtocol_of_not_guarded {s s' : SyncSystem} (hinv : SyncInv s) {a : SyncAction}
    (hstep : syncStep s a = some s') (hbad : ¬ SyncGuarded s a) : ¬ SlotProtocol s' := by
  intro hp
  cases a with
  | buffer used => exact hbad trivial
  | insert kind e =>
    cases kind with
    | connect => exact hbad trivial
    | send => exact hbad trivial
    | receive =>
      simp only [SyncGuarded, not_forall, Bool.not_eq_false] at hbad
      obtain ⟨hsend, hconn, hrecv, hdata⟩ := hbad
      have hst : s.conn.state = .idle ∨ s.conn.state = .synchronous := hinv.state_eq
      have hframe := bufferedSendDataGet_frame (connChangeState s.conn .synchronous)
      have hdata' : (bufferedSendDataGet (connChangeState s.conn .synchronous)).1 = true := by
        rw [← hdata]
        unfold bufferedSendDataGet connChangeState
        cases s.conn.sendBuffer <;> rfl
      simp only [syncStep, SyncCall.insert, synchronousReceiveEventInsert, if_pos hst,
        if_pos (And.intro hconn hrecv), hdata'] at hstep
      split_ifs at hstep
      cases hstep
      have halone := (hp.connect_alone (by simp [slotSet, Slots.set])).2
      have hsend' : (bufferedSendDataGet (connChangeState s.conn .synchronous)).2.activeEvent.send
          = none := halone
      rw [hframe.2] at hsend'
      exact hsend hsend'
  | remove h =>
    simp only [SyncGuarded, not_forall] at hbad
    obtain ⟨hkind, hsend⟩ := hbad
    simp only [syncStep] at hstep
    split_ifs at hstep with hh
    obtain ⟨c, hok, hact, hst⟩ := remove_ok hinv hh
    rw [hok] at hstep
    cases hstep
    -- a call in the connect slot is alone, so this one is in the receive slot
    have hslot : h.slot = .receive := by
      obtain ⟨kind, e, lock⟩ := h
      cases hkind
      cases lock with
      | false => rfl
      | true =>
        have := hinv.holds _ hh
        exact absurd (hinv.connect_alone (by
          intro hc
          rw [show s.conn.activeEvent.get _ = s.conn.activeEvent.connect from rfl, hc] at this
          cases this)).2 hsend
    have hidle : c.state = .idle := by simp [hst, hkind]
    have := hp.idle_empty hidle .send
    rw [show (⟨c, s.calls.erase h⟩ : SyncSystem).conn.activeEvent = _ from hact, hslot] at this
    exact hsend this

/-- **One step (proved).**  From a state that keeps the protocol a step keeps it exactly when it is
guarded. -/
theorem syncStep_slotProtocol {s s' : SyncSystem} (hinv : SyncInv s) {a : SyncAction}
    (hstep : syncStep s a = some s') : SyncGuarded s a → SyncInv s' := by
  intro hguard
  cases a with
  | buffer used =>
    cases hstep
    exact ⟨hinv.state_eq, hinv.idle_empty, hinv.connect_alone, hinv.holds, hinv.lock_receive,
      hinv.slots_nodup⟩
  | insert kind e =>
    simp only [syncStep] at hstep
    split_ifs at hstep
    cases hok : SyncCall.insert s.conn kind e with
    | error err =>
      rw [hok] at hstep
      cases hstep
      exact hinv
    | ok p =>
      rw [hok] at hstep
      cases hstep
      exact syncInv_of_insert hinv hok hguard
  | remove h =>
    simp only [syncStep] at hstep
    split_ifs at hstep with hh
    obtain ⟨c, hok, hact, hst⟩ := remove_ok hinv hh
    rw [hok] at hstep
    cases hstep
    exact syncInv_of_remove hinv hh hact hst hguard

/-! ### Every run -/

/-- **The slot protocol over runs (proved).**  Every state of a run of guarded steps keeps the slot
protocol, and the next step of any kind keeps it exactly when it is guarded. -/
theorem reachable_slotProtocol {init : SyncSystem} (h0 : init.Initial) {s : SyncSystem}
    (hs : ReachableVia (enabled syncStep) SyncGuarded init s) :
    SlotProtocol s ∧ ∀ a s', syncStep s a = some s' → (SlotProtocol s' ↔ SyncGuarded s a) := by
  have hkeep : ∀ s a s', SyncInv s → SyncGuarded s a → enabled syncStep s a s' → SyncInv s' :=
    fun _ _ _ hinv hguard hstep => syncStep_slotProtocol hinv hstep hguard
  have hinv : SyncInv s := hs.invariant h0.syncInv hkeep
  refine ⟨hinv.slotProtocol, fun a s' hstep => ⟨fun hp => ?_, fun hguard => ?_⟩⟩
  · by_contra hbad
    exact not_slotProtocol_of_not_guarded hinv hstep hbad hp
  · exact (syncStep_slotProtocol hinv hstep hguard).slotProtocol

/-- A connected conn on which nothing is going on. -/
def SyncSystem.connected : SyncSystem := ⟨connAlloc (some 3), []⟩

theorem SyncSystem.connected_initial : SyncSystem.connected.Initial :=
  ⟨rfl, fun k => by cases k <;> rfl, rfl⟩

/-- A reader beside a writer on which the send buffer is empty. -/
theorem reachable_slotProtocol_readerAndWriter :
    ∃ s, SlotProtocol s ∧ s.calls = [⟨.send, 2, false⟩, ⟨.receive, 1, false⟩] := by
  let s₁ : SyncSystem := ⟨{ connAlloc (some 3) with
    state := .synchronous, activeEvent := ⟨none, some 1, none⟩ }, [⟨.receive, 1, false⟩]⟩
  let s₂ : SyncSystem := ⟨{ connAlloc (some 3) with
    state := .synchronous, activeEvent := ⟨none, some 1, some 2⟩ },
    [⟨.send, 2, false⟩, ⟨.receive, 1, false⟩]⟩
  have h₁ : ReachableVia (enabled syncStep) SyncGuarded .connected s₁ :=
    .next (a := .insert .receive 1) .init (fun _ _ _ => rfl) rfl
  have h₂ : ReachableVia (enabled syncStep) SyncGuarded .connected s₂ :=
    .next (a := .insert .send 2) h₁ trivial rfl
  exact ⟨s₂, (reachable_slotProtocol SyncSystem.connected_initial h₂).1, rfl⟩

/-- A reader that returns while a writer is still sending leaves the conn idle with the send slot
occupied. -/
theorem slotProtocol_fails_readerReturnsFirst :
    ¬ ∀ s, Reachable (enabled syncStep) .connected s → SlotProtocol s := by
  intro hall
  let s : SyncSystem := ⟨{ connAlloc (some 3) with activeEvent := ⟨none, none, some 2⟩ },
    [⟨.send, 2, false⟩]⟩
  have hrun : runFrom syncStep .connected
      [.insert .receive 1, .insert .send 2, .remove ⟨.receive, 1, false⟩] = some s := rfl
  have hp := hall s (reachable_of_runFrom hrun)
  exact absurd (hp.idle_empty rfl .send) (by decide)

end Connio
