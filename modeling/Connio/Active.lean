import Connio.Event

/-!
# Active events and the send buffer

The small functions both the synchronous and the asynchronous side of a conn use (`conninline.h`,
`connio.c`): the state change, the three active slots and the buffered send data.

* `connEventInProgressSet` / `connEventInProgressClear` — the slot of the event's own class;
* `connEventsInProgress` — is any slot occupied;
* `bufferedSendDataGet` — take the send buffer if it holds data; `writeClientData` — fill it;
* `connAlloc` — a new conn.
-/

namespace Connio

open Connio.Lib

/-- `ConnChangeState` -/
def connChangeState (c : Conn) (newState : ConnState) : Conn := { c with state := newState }

/-- `ConnEventConnectInProgressSet`, `ConnEventReceiveInProgressSet`, `ConnEventSendInProgressSet` -/
def slotSet (c : Conn) (k : ConnEventClass) (e : EventId) : Conn :=
  { c with activeEvent := c.activeEvent.set k (some e) }

/-- `ConnEventConnectInProgressClear`, `ConnEventReceiveInProgressClear`,
`ConnEventSendInProgressClear` -/
def slotClear (c : Conn) (k : ConnEventClass) : Conn :=
  { c with activeEvent := c.activeEvent.set k none }

/-- `ConnEventInProgressSet` -/
def connEventInProgressSet (c : Conn) (e : EventId) : Conn := slotSet c (c.classOf e) e

/-- `ConnEventInProgressClear` -/
def connEventInProgressClear (c : Conn) (e : EventId) : Conn := slotClear c (c.classOf e)

/-- `ConnEventsInProgress` -/
def connEventsInProgress (c : Conn) : Bool :=
  c.activeEvent.connect.isSome || c.activeEvent.receive.isSome || c.activeEvent.send.isSome

theorem connEventsInProgress_eq_false {c : Conn} :
    connEventsInProgress c = false ↔
      c.activeEvent.connect = none ∧ c.activeEvent.receive = none ∧ c.activeEvent.send = none := by
  simp [connEventsInProgress, and_assoc]

/-- `bufferedSendDataGet( conn, WITH_DATA )`: TRUE when a buffer with data is handed back.  A buffer
without data is freed. -/
def bufferedSendDataGet (c : Conn) : Bool × Conn :=
  match c.sendBuffer with
  | some used => (decide (used ≠ 0), { c with sendBuffer := none })
  | none => (false, c)

/-- `writeClientData` without the flush of a full buffer: an asynchronous write puts an idle conn into
client mode, and the send buffer then holds `used` octets. -/
def writeClientData (c : Conn) (async : Bool) (used : Option ℕ) : Conn :=
  let c := if async = true ∧ c.state = .idle then connChangeState c .asynchronousClient else c
  { c with sendBuffer := used }

/-- `_ConnAllocEx`: a new conn is idle, with nothing queued and no active event. -/
def connAlloc (number : Option ℕ) : Conn where
  events := fun _ => { type := .flush, source := ⟨0, 0⟩ }
  transaction := {}
  activeEvent := ⟨none, none, none⟩
  state := .idle
  sendBuffer := none
  receiveBuffer := []
  qFailure := false
  shuttingDown := false
  waitForSubmit := false
  sp := { number := number }
  log := []

end Connio
