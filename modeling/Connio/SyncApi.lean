import Connio.Process
import Connio.ReadApi
import Connio.WriteFromCb

/-!
# The synchronous calls of the consumer

The synchronous functions of `connio.c` with the octets they move.  A read and a connect-class call first
flush what writes have left in the send buffer, and then process their own event on the same `ConnEvent`.

* `eventProcess` — `EventProcess` for a synchronous event, which waits where it would block;
* `SyncConn` — a conn as its one thread sees it; `SyncConn.flush` — one flush;
* `connWriteEx`, `connWriteFromCBEx`, `connFlushEx`, ... `connDisconnectEx` — the functions under their source
  names; `ConsumerCall` — any of them;
* `SyncReturn.Reported` — the call reports a failure; `syncRun` — a sequence of calls;
* `implicitFlush_spec`, `syncWriteClientData_dropped`, `writeFromCB_dropped` — **PROVED**: a flush and a write drop
  octets only with an error.

A call that is given answers which no execution gives it is `none`.
-/

namespace Connio

open Connio.Lib

/-! ### A synchronous event -/

/-- `SocketWait`; there is nothing to wait for when the call did not say what it was blocked on. -/
def socketWait : SocketEventType → Option Errno → Option Errno
  | .none, none => some Errno.econniobug
  | .none, some _ => none
  | _, answer => answer

/-- `EventProcess` for a synchronous event: the process function is called again each time it would block and
`SocketWait` returns 0.  An answer of the process function comes with the answer of `SocketWait` after it; the
result is `ce->error`. -/
def eventProcess {σ α : Type} (process : σ → α → Option ((Errno × SocketEventType) × σ))
    (inProgress : σ → σ) : σ → List (α × Option Errno) → Option (Errno × σ)
  | _, [] => none
  | s, (a, wait) :: rounds =>
    match process s a with
    | none => none
    | some ((err, blockedOn), s') =>
      if err = Errno.ewouldblock then
        match socketWait blockedOn wait with
        | none => none
        | some 0 => eventProcess process inProgress (inProgress s') rounds
        | some e => if rounds = [] then some (e, s') else none
      else if wait = none ∧ rounds = [] then some (err, s') else none

/-- A conn as the thread that uses it sees it. -/
structure SyncConn where
  sp : SOCK
  /-- the octets in `sendBuffer`; `none` is the NULL pointer -/
  sendBuffer : Option (List UInt8)
  receiveBuffer : List UInt8
  /-- all octets the socket has handed over -/
  received : List UInt8
  /-- all octets the transport has accepted -/
  wire : List UInt8
  shuttingDown : Bool
  deriving DecidableEq, Repr

/-- A conn on a socket in the clear, with nothing buffered. -/
def SyncConn.new (number : Option ℕ) : SyncConn :=
  { sp := { number := number }, sendBuffer := none, receiveBuffer := [], received := [], wire := []
    shuttingDown := false }

/-- What a call returns: `errno`, its `XplBool` result if it has one, the octets that were buffered and are
gone without having been accepted, and those its callback supplied. -/
structure SyncReturn where
  conn : SyncConn
  errno : Errno
  result : Option Bool := none
  transferred : ℕ := 0
  dropped : List UInt8 := []
  supplied : List UInt8 := []
  deriving DecidableEq, Repr

/-! ### Flushing -/

/-- What a flush meets: how its buffer lies, and the answers of the transport, on the socket and in an SSL
session. -/
structure FlushInput where
  iob : (total : ℕ) → SendBuffer total
  clear : List (List (List (TransportAnswer Errno)) × Option Errno)
  ssl : List (List (List (TransportAnswer SslResult)) × Option Errno)

/-- The process function of a flush; `s` is how far it has come and the calls it has made. -/
def flushProcess {ε : Type} (socketSend : ℕ → ℕ → ℕ → List (TransportAnswer ε) → Option SendReturn)
    {total : ℕ} (iob : SendBuffer total) (s : ℕ × List SendReturn)
    (calls : List (List (TransportAnswer ε))) :
    Option ((Errno × SocketEventType) × (ℕ × List SendReturn)) :=
  (flushSendBuffer socketSend iob s.1 calls).map fun r =>
    ((r.error, r.blockedOn), (r.pos, s.2 ++ r.sends))

/-- A flush event: its error, how far it has come, and its calls of `SocketSend`. -/
def flushEvent (secured : Bool) (total : ℕ) (input : FlushInput) :
    Option (Errno × (ℕ × List SendReturn)) :=
  if secured then eventProcess (flushProcess sslSend (input.iob total)) id (0, []) input.ssl
  else eventProcess (flushProcess clearSend (input.iob total)) id (0, []) input.clear

namespace SyncConn

variable (c : SyncConn)

/-- Flush `data`: the error, what is dropped with the buffer, and the conn. -/
def flush (data : List UInt8) (input : FlushInput) : Option (Errno × List UInt8 × SyncConn) :=
  (flushEvent c.sp.sslConn.isSome data.length input).map fun (err, pos, sends) =>
    (err, data.drop pos, { c with wire := c.wire ++ handed data (sends.flatMap SendReturn.offers) })

/-- `bufferedSendDataGet( conn, WITH_DATA )`; no octets stand for NULL. -/
def bufferedSendDataGet : List UInt8 × SyncConn := (c.sendBuffer.getD [], { c with sendBuffer := none })

/-- The implicit flush: what is dropped, the error it leaves in `errno`, and the conn. -/
def implicitFlush (input : FlushInput) : Option (Errno × List UInt8 × SyncConn) :=
  match c.bufferedSendDataGet with
  | ([], c) => some (0, [], c)
  | (bufferedSendData, c) => c.flush bufferedSendData input

end SyncConn

/-- The checks of the arguments have left `errno`, or the handle is shutting down. -/
def refusedErrno (errno : Errno) (shuttingDown : Bool) : Errno :=
  if errno ≠ 0 then errno else if shuttingDown then Errno.econnhandleshutdown else 0

/-- The octets are buffered, or some are gone before `c`. -/
def SyncReturn.refused (c : SyncConn) (errno : Errno) (result : Option Bool) : SyncReturn :=
  { conn := c, errno := errno, result := result }

/-! ### Writes and flushes -/

/-- One round of `writeClientData`: whether a buffer is allocated, and the flush when it is full. -/
structure WriteRound where
  allocated : Bool
  flush : FlushInput

/-- `writeClientData`, synchronous -/
def syncWriteClientData (c : SyncConn) (data : List UInt8) (transferred : ℕ) :
    List WriteRound → Option SyncReturn
  | [] => none
  | round :: rounds =>
    if c.sendBuffer = none ∧ round.allocated = false then
      if rounds = [] then some { conn := c, errno := Errno.enomem, transferred := transferred } else none
    else
      let used := c.sendBuffer.getD []
      let bufferSpace := connIobSize - used.length
      if data.length < bufferSpace then
        if rounds = [] then
          some { conn := { c with sendBuffer := some (used ++ data) }, errno := 0
                 transferred := transferred + data.length }
        else none
      else
        match { c with sendBuffer := none }.flush (used ++ data.take bufferSpace) round.flush with
        | none => none
        | some (err, dropped, c') =>
          if err = 0 then
            syncWriteClientData c' (data.drop bufferSpace) (transferred + bufferSpace) rounds
          else if rounds = [] then
            some { conn := c', errno := err, transferred := transferred + bufferSpace, dropped := dropped }
          else none

def connWriteEx (c : SyncConn) (errno : Errno) (data : List UInt8) (rounds : List WriteRound) :
    Option SyncReturn :=
  let err := refusedErrno errno c.shuttingDown
  if err ≠ 0 then some (.refused c err none) else syncWriteClientData c data 0 rounds

/-- What the event of `ConnWriteFromCB` meets, on the socket and in an SSL session. -/
structure WriteFromCBInput where
  clear : List (List (WriteCbRound Errno) × Option Errno)
  ssl : List (List (WriteCbRound SslResult) × Option Errno)

/-- The event takes over the send buffer; `memory` is what `IOBAlloc` answers when there is none. -/
def connWriteFromCBEx (c : SyncConn) (errno : Errno) (count : ℕ) (memory : Bool) (input : WriteFromCBInput) :
    Option SyncReturn :=
  let err := refusedErrno errno c.shuttingDown
  if err ≠ 0 then some (.refused c err none)
  else if c.sendBuffer = none ∧ memory = false then some (.refused c Errno.enomem none)
  else
    let s : WriteState := { buffer := c.sendBuffer.getD [], count := count }
    (if c.sp.sslConn.isSome then eventProcess (writeFromCB sslSend) id s input.ssl
      else eventProcess (writeFromCB clearSend) id s input.clear).map fun (err, s) =>
        { conn := { c with sendBuffer := none, wire := c.wire ++ s.sent }
          errno := err, transferred := s.transferred, dropped := s.buffer, supplied := s.supplied }

def connFlushEx (c : SyncConn) (errno : Errno) (input : FlushInput) : Option SyncReturn :=
  if errno ≠ 0 then some (.refused c errno none)
  else
    (c.implicitFlush input).map fun (err, dropped, c') => { conn := c', errno := err, dropped := dropped }

/-! ### Reads -/

section Reads

variable (iob : IOBufferLib)

/-- The process function of a read. -/
def readEventProcess (s : ReadState) (input : ReadInput) :
    Option ((Errno × SocketEventType) × ReadState) :=
  (socketEventProcess iob s input).map fun r => ((r.error, r.blockedOn), r.state)

/-- A blocked read is in progress. -/
def ReadState.inProgress (s : ReadState) : ReadState := { s with event := { s.event with inProgress := true } }

/-- A read event on the conn: its error, and the conn's own state. -/
def SyncConn.readEvent (c : SyncConn) (event : ReadEvent) (rounds : List (ReadInput × Option Errno)) :
    Option (Errno × ReadState) :=
  eventProcess (readEventProcess iob) ReadState.inProgress ⟨event, c.receiveBuffer, c.received⟩ rounds

/-- The implicit flush and the read event.  The event is assigned again after the flush, and its error is what
is reported. -/
def SyncConn.flushAndRead (c : SyncConn) (event : ReadEvent) (input : FlushInput)
    (rounds : List (ReadInput × Option Errno)) : Option SyncReturn :=
  match c.implicitFlush input with
  | none => none
  | some (_, dropped, c') =>
    (c'.readEvent iob event rounds).map fun (err, s) =>
      { conn := { c' with receiveBuffer := s.buffer, received := s.received }
        errno := err, transferred := s.event.transferred, dropped := dropped }

def connReadToCondition (c : SyncConn) (call : ReadCall) (input : FlushInput)
    (rounds : List (ReadInput × Option Errno)) : Option SyncReturn :=
  let err := refusedErrno (if call.accepted then 0 else if call.errno = 0 then Errno.einval else call.errno)
    c.shuttingDown
  if err ≠ 0 then some (.refused c err none)
  else
    c.flushAndRead iob (connEventAssign call.type call.dataMode call.pattern call.buffSize) input rounds

def connReadToCBEx (c : SyncConn) (errno : Errno) (count : ℕ) (input : FlushInput)
    (rounds : List (ReadInput × Option Errno)) : Option SyncReturn :=
  let err := refusedErrno errno c.shuttingDown
  if err ≠ 0 then some (.refused c err none)
  else c.flushAndRead iob (connEventAssign .readToCb {} [] count) input rounds

def connReadToConnEx (c : SyncConn) (errno : Errno) (count : ℕ) (input : FlushInput)
    (rounds : List (ReadInput × Option Errno)) : Option SyncReturn :=
  let err := refusedErrno errno c.shuttingDown
  if err ≠ 0 then some (.refused c err none)
  else c.flushAndRead iob (connEventAssign .readToConn {} [] count) input rounds

end Reads

/-! ### Connect-class calls -/

/-- What the process function of a connect-class event works on, with `errno`. -/
structure ConnectState where
  sp : SOCK
  receiveBuffer : List UInt8
  inProgress : Bool
  errno : Errno
  deriving DecidableEq, Repr

/-- A blocked connect-class event is in progress. -/
def ConnectState.blocked (s : ConnectState) : ConnectState := { s with inProgress := true }

/-- What one call of the process function of a connect-class event meets, and what is in `errno` after the
calls of the SSL library and the system. -/
inductive ConnectAnswer where
  | handshake (new : Option ℕ) (ret : SslResult) (errno : Errno)
  | shutdown (ret : SslResult) (errno : Errno)
  | disconnectStart (errno : Errno)
  /-- the last `SocketReceive` of `drainWire` fails with this error -/
  | drainWire (err : Errno)
  deriving DecidableEq, Repr

/-- `socketEventProcess` for the connect-class events of an established connection -/
def connectProcess (type : ConnEventType) (s : ConnectState) :
    ConnectAnswer → Option ((Errno × SocketEventType) × ConnectState)
  | .handshake new ret errno =>
    if type.isHandshake then
      if s.receiveBuffer = [] then
        let (r, sp) := sslConnect s.sp new ret
        some (r, { s with sp := sp, errno := errno })
      else some ((Errno.eoverflow, .none), s)
    else none
  | .shutdown ret errno =>
    if type = .sslDisconnect then
      let (r, sp) := socketSSLDisconnect s.sp ret
      some (r, { s with sp := sp, errno := errno })
    else none
  | .disconnectStart errno =>
    if type = .disconnect ∧ s.inProgress = false then
      -- the receive buffer is drained first
      let s := { s with receiveBuffer := [] }
      if s.sp.number = none then some ((0, .none), s)
      else some (socketSyncDisconnectStart, { s with errno := errno })
    else none
  | .drainWire err =>
    if type = .disconnect ∧ s.inProgress = true ∧ err ≠ 0 then
      some (drainWire err, { s with errno := 0 })
    else none

/-- `socketEventComplete` and `socketEventAbort`; `close` is what a failed `close` leaves in `errno`. -/
def connectEnd (type : ConnEventType) (close : Errno) (err : Errno) (s : ConnectState) : ConnectState :=
  if type = .disconnect then
    { s with
      sp := socketClose s.sp
      errno := if err ≠ 0 then err else if close ≠ 0 then close else s.errno }
  else if err ≠ 0 then { s with sp := socketSSLAbort s.sp, errno := err }
  else s

/-- What a connect-class event meets. -/
structure ConnectInput where
  rounds : List (ConnectAnswer × Option Errno)
  close : Errno
  deriving DecidableEq, Repr

/-- `ConnEventProcess` for a connect-class event: its error, and the state with `errno`. -/
def connectEvent (type : ConnEventType) (s : ConnectState) (input : ConnectInput) :
    Option (Errno × ConnectState) :=
  (eventProcess (connectProcess type) ConnectState.blocked s input.rounds).map fun (err, s) =>
    (err, connectEnd type input.close err s)

/-- The implicit flush and the connect-class event, which is assigned again after the flush. -/
def SyncConn.flushAndConnect (c : SyncConn) (type : ConnEventType) (flush : FlushInput)
    (input : ConnectInput) : Option SyncReturn :=
  match c.implicitFlush flush with
  | none => none
  | some (errno, dropped, c') =>
    (connectEvent type ⟨c'.sp, c'.receiveBuffer, false, errno⟩ input).map fun (err, s) =>
      { conn := { c' with sp := s.sp, receiveBuffer := s.receiveBuffer }
        errno := if type = .sslDisconnect then err else s.errno
        result := some (decide (err = 0)), dropped := dropped }

/-- `connIsStillConnected` and `connIsNotSecured`: the `errno` they set. -/
def connectErrno (c : SyncConn) : Errno :=
  if c.sp.number = none then Errno.enotconn else if c.sp.sslConn.isSome then Errno.ealready else 0

def connSSLConnectEx (c : SyncConn) (errno : Errno) (tls : Bool) (flush : FlushInput)
    (input : ConnectInput) : Option SyncReturn :=
  let err := refusedErrno errno c.shuttingDown
  if err ≠ 0 then some (.refused c err (some false))
  else if connectErrno c ≠ 0 then some (.refused c (connectErrno c) (some false))
  else c.flushAndConnect (if tls then .tlsConnect else .sslConnect) flush input

def connSSLAcceptEx (c : SyncConn) (errno : Errno) (tls : Bool) (flush : FlushInput)
    (input : ConnectInput) : Option SyncReturn :=
  let err := refusedErrno errno c.shuttingDown
  if err ≠ 0 then some (.refused c err (some false))
  else if connectErrno c ≠ 0 then some (.refused c (connectErrno c) (some false))
  else c.flushAndConnect (if tls then .tlsAccept else .sslAccept) flush input

/-- The handle is not tested, and the conn has to be secured here. -/
def connSSLDisconnectEx (c : SyncConn) (errno : Errno) (flush : FlushInput) (input : ConnectInput) :
    Option SyncReturn :=
  if errno ≠ 0 then some (.refused c errno (some false))
  else if c.sp.sslConn = none then some (.refused c Errno.ealready (some false))
  else c.flushAndConnect .sslDisconnect flush input

/-- The handle is not tested here. -/
def connDisconnectEx (c : SyncConn) (errno : Errno) (flush : FlushInput) (input : ConnectInput) :
    Option SyncReturn :=
  if errno ≠ 0 then some (.refused c errno (some false))
  else if connectErrno c ≠ 0 then some (.refused c (connectErrno c) (some false))
  else c.flushAndConnect .disconnect flush input

/-! ### Any call -/

/-- A synchronous call, with what it meets; `errno` is what the checks of its arguments leave. -/
inductive ConsumerCall where
  | write (errno : Errno) (data : List UInt8) (rounds : List WriteRound)
  | writeFromCB (errno : Errno) (count : ℕ) (memory : Bool) (input : WriteFromCBInput)
  | flush (errno : Errno) (input : FlushInput)
  | read (call : ReadCall) (first : FlushInput) (rounds : List (ReadInput × Option Errno))
  | readToCB (errno : Errno) (count : ℕ) (first : FlushInput) (rounds : List (ReadInput × Option Errno))
  | readToConn (errno : Errno) (count : ℕ) (first : FlushInput) (rounds : List (ReadInput × Option Errno))
  | sslConnect (errno : Errno) (tls : Bool) (first : FlushInput) (input : ConnectInput)
  | sslAccept (errno : Errno) (tls : Bool) (first : FlushInput) (input : ConnectInput)
  | sslDisconnect (errno : Errno) (first : FlushInput) (input : ConnectInput)
  | disconnect (errno : Errno) (first : FlushInput) (input : ConnectInput)

section Calls

variable (iob : IOBufferLib)

def ConsumerCall.run (c : SyncConn) : ConsumerCall → Option SyncReturn
  | .write errno data rounds => connWriteEx c errno data rounds
  | .writeFromCB errno count memory input => connWriteFromCBEx c errno count memory input
  | .flush errno input => connFlushEx c errno input
  | .read call first rounds => connReadToCondition iob c call first rounds
  | .readToCB errno count first rounds => connReadToCBEx iob c errno count first rounds
  | .readToConn errno count first rounds => connReadToConnEx iob c errno count first rounds
  | .sslConnect errno tls first input => connSSLConnectEx c errno tls first input
  | .sslAccept errno tls first input => connSSLAcceptEx c errno tls first input
  | .sslDisconnect errno first input => connSSLDisconnectEx c errno first input
  | .disconnect errno first input => connDisconnectEx c errno first input

/-- **The call reports a failure:** `errno` is set, or its result is FALSE. -/
def SyncReturn.Reported (r : SyncReturn) : Prop := r.errno ≠ 0 ∨ r.result = some false

/-- A call of a sequence: the conn before it, the call, and what it returned. -/
structure SyncRun where
  before : SyncConn
  call : ConsumerCall
  ret : SyncReturn

/-- A sequence of calls on one conn. -/
def syncRun (c : SyncConn) : List ConsumerCall → Option (List SyncRun)
  | [] => some []
  | call :: calls =>
    match call.run iob c with
    | none => none
    | some r => (syncRun r.conn calls).map (⟨c, call, r⟩ :: ·)

end Calls

/-! ### What a flush drops -/

section Dropped

variable {c : SyncConn}

/-- A synchronous event that completes has returned 0 at last; what the process function keeps is kept. -/
theorem eventProcess_complete {σ α : Type} {process : σ → α → Option ((Errno × SocketEventType) × σ)}
    {inProgress : σ → σ} {I P : σ → Prop}
    (hstep : ∀ s a err blockedOn s', I s → process s a = some ((err, blockedOn), s') →
      I s' ∧ (err = 0 → P s'))
    (hprogress : ∀ s, I s → I (inProgress s)) :
    ∀ {rounds : List (α × Option Errno)} {s s' : σ}, I s →
      eventProcess process inProgress s rounds = some (0, s') → P s'
  | [], _, _, _, h => by cases h
  | (a, wait) :: rounds, s, s', hI, h => by
    simp only [eventProcess] at h
    split at h
    · cases h
    next err blockedOn s₁ hprocess =>
      obtain ⟨hI₁, hP₁⟩ := hstep s a err blockedOn s₁ hI hprocess
      split at h
      · split at h
        · cases h
        · exact eventProcess_complete hstep hprogress (hprogress s₁ hI₁) h
        next hne _ =>
          split at h <;> cases h
          exact absurd rfl hne
      · split at h <;> cases h
        exact hP₁ rfl

/-- **A flush that completes drops nothing (proved).** -/
theorem flushEvent_complete {secured : Bool} {total pos : ℕ} {sends : List SendReturn} {input : FlushInput}
    (h : flushEvent secured total input = some (0, (pos, sends))) : pos = total := by
  have hspec : ∀ {ε : Type} {socketSend : ℕ → ℕ → ℕ → List (TransportAnswer ε) → Option SendReturn}
      {good : List (TransportAnswer ε) → Prop} {rounds : List (List (List (TransportAnswer ε)) × Option Errno)},
      SendOk socketSend good →
      eventProcess (flushProcess socketSend (input.iob total)) id (0, []) rounds = some (0, (pos, sends)) →
        pos = total := by
    intro ε socketSend good rounds hsend hrun
    refine eventProcess_complete (I := fun s => s.1 ≤ total) (P := fun s => s.1 = total) ?_
      (fun _ h => h) (Nat.zero_le total) hrun
    intro s calls err blockedOn s' hle hprocess
    obtain ⟨r, hr, heq⟩ := Option.map_eq_some_iff.mp hprocess
    have hr' := flushSendBuffer_spec hsend (input.iob total) hle hr
    cases heq
    exact ⟨hr'.le, hr'.complete⟩
  unfold flushEvent at h
  split at h
  · exact hspec sslSend_ok h
  · exact hspec clearSend_ok h

theorem flush_complete {data dropped : List UInt8} {input : FlushInput} {c' : SyncConn}
    (h : c.flush data input = some (0, dropped, c')) : dropped = [] := by
  obtain ⟨⟨err, pos, sends⟩, hevent, heq⟩ := Option.map_eq_some_iff.mp h
  cases heq
  rw [flushEvent_complete hevent, List.drop_length]

/-- The flush leaves the socket and the receive buffer alone. -/
theorem flush_same {data dropped : List UInt8} {err : Errno} {input : FlushInput} {c' : SyncConn}
    (h : c.flush data input = some (err, dropped, c')) :
    c'.sp = c.sp ∧ c'.receiveBuffer = c.receiveBuffer ∧ c'.received = c.received := by
  obtain ⟨⟨err, pos, sends⟩, _, heq⟩ := Option.map_eq_some_iff.mp h
  cases heq
  exact ⟨rfl, rfl, rfl⟩

/-- **The implicit flush (proved):** it drops octets only with an error, and leaves what follows alone. -/
theorem implicitFlush_spec {input : FlushInput} {err : Errno} {dropped : List UInt8} {c' : SyncConn}
    (h : c.implicitFlush input = some (err, dropped, c')) :
    (err = 0 → dropped = []) ∧ c'.sp = c.sp ∧ c'.receiveBuffer = c.receiveBuffer ∧
      c'.received = c.received := by
  simp only [SyncConn.implicitFlush, SyncConn.bufferedSendDataGet] at h
  split at h
  next heq =>
    obtain ⟨_, rfl⟩ := Prod.mk.inj heq
    cases h
    exact ⟨fun _ => rfl, rfl, rfl, rfl⟩
  next heq =>
    obtain ⟨rfl, rfl⟩ := Prod.mk.inj heq
    have hsame := flush_same h
    refine ⟨fun herr => ?_, hsame⟩
    subst herr
    exact flush_complete h

/-- **A write drops octets only with an error (proved).** -/
theorem syncWriteClientData_dropped : ∀ {rounds : List WriteRound} {c : SyncConn} {data : List UInt8}
    {transferred : ℕ} {r : SyncReturn},
    syncWriteClientData c data transferred rounds = some r → r.errno = 0 → r.dropped = []
  | [], _, _, _, _, h, _ => by cases h
  | round :: rounds, c, data, transferred, r, h, herr => by
    simp only [syncWriteClientData] at h
    split at h
    · split at h <;> cases h
      rfl
    split at h
    · split at h <;> cases h
      rfl
    split at h
    · cases h
    next err dropped c' hflush =>
      split at h
      · exact syncWriteClientData_dropped h herr
      next hne =>
        split at h <;> cases h
        exact absurd herr hne

/-- **A write from a callback drops octets only with an error (proved).** -/
theorem writeFromCB_dropped {input : WriteFromCBInput} {s s' : WriteState} {secured : Bool}
    (h : (if secured then eventProcess (writeFromCB sslSend) id s input.ssl
      else eventProcess (writeFromCB clearSend) id s input.clear) = some (0, s')) : s'.buffer = [] := by
  have hempty : ∀ {ε : Type} {socketSend : ℕ → ℕ → ℕ → List (TransportAnswer ε) → Option SendReturn}
      {good : List (TransportAnswer ε) → Prop} {rounds : List (List (WriteCbRound ε) × Option Errno)},
      SendOk socketSend good → eventProcess (writeFromCB socketSend) id s rounds = some (0, s') →
        s'.buffer = [] := by
    intro ε socketSend good rounds hsend hrun
    refine eventProcess_complete (I := fun _ => True) (P := fun s => s.buffer = []) ?_ (fun _ h => h)
      trivial hrun
    intro s a err blockedOn s' _ hprocess
    exact ⟨trivial, (writeFromCB_ok hsend hprocess).empty⟩
  split at h
  · exact hempty sslSend_ok h
  · exact hempty clearSend_ok h

end Dropped

end Connio
