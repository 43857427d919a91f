import Connio.Event

/-!
# Socket events and the socket engine

The part of the socket layer that carries a blocked conn event through the engine (`sockinline.h`,
`sockcommon.c`, `sockunix.c`, on Linux): the three `SocketEvent`s of a `SOCK`, how one is linked to a
conn event, enters epoll, completes or is killed, and is unlinked again by `HandleSocketEvent`.

* `sockEventTranslate`, `socketEventWaitEx` — which `SocketEvent` a blocked conn event is put into;
* `SocketEvent.complete`, `sockEventKill`, `socketEventKill` — taking a `SocketEvent` out of the engine;
* `pollReady`, `pollTimeout` — what the poll thread does with a ready or expired one;
* `handleSocketEvent` — the callback thread captures the event and its error, and unlinks it;
* `socketClose`, `socketSSLAbort`, `sslConnect`, ... — the socket number and the two SSL pointers.

Listeners are not modelled: `SOCK.listener` is NULL for every conn that has a queue.
-/

namespace Connio

open Connio.Lib

/-! ### The socket number and the SSL pointers -/

/-- `socketClose` -/
def socketClose (sp : SOCK) : SOCK := { sp with number := none }

/-- `SocketSSLAbort` -/
def socketSSLAbort (sp : SOCK) : SOCK := { sp with sslNew := none, sslConn := none }

/-- Free the pending handshake (`CancelEvent`). -/
def socketSSLNewFree (sp : SOCK) : SOCK := { sp with sslNew := none }

/-! ### Connect and disconnect -/

/-- `socketSyncConnectStart`, also used by `SocketAsyncConnectStart`: the error, `blockedOn` and the
socket; `number` and `err` are what the system calls answer. -/
def socketSyncConnectStart (sp : SOCK) (number : Option ℕ) (err : Errno) :
    (Errno × SocketEventType) × SOCK :=
  ((err, if err = Errno.ewouldblock then .connect else .none), { sp with number := number })

/-- `socketSyncDisconnectStart`, also used by `SocketAsyncDisconnectStart` -/
def socketSyncDisconnectStart : Errno × SocketEventType := (Errno.ewouldblock, .disconnect)

/-! ### SSL -/

/-- What an SSL library call reports, with the errors left in its queue taken into account. -/
inductive SslResult where
  | success
  | wantWrite
  | wantRead
  | zeroReturn
  | failure
  deriving DecidableEq, Repr

/-- `sslErrorGet`: the error and `blockedOn` -/
def sslErrorGet : SslResult → Errno × SocketEventType
  | .wantWrite => (Errno.ewouldblock, .writable)
  | .wantRead => (Errno.ewouldblock, .readable)
  | .zeroReturn => (Errno.econnclosedbypeer, .none)
  | .success | .failure => (Errno.eio, .none)

/-- `sslConnect`: the error, `blockedOn` and the socket; `new` is the result of `SocketSSLAlloc`, `ret`
what `SSL_connect` or `SSL_accept` reports. -/
def sslConnect (sp : SOCK) (new : Option ℕ) (ret : SslResult) : (Errno × SocketEventType) × SOCK :=
  match sp.sslConn with
  | some _ => ((Errno.econnalreadysecured, .none), sp)
  | none =>
    match sp.sslNew.or new with
    | none => ((Errno.econnsslstart, .none), sp)
    | some ssl =>
      if ret = .success then ((0, .none), { sp with sslNew := none, sslConn := some ssl })
      else (sslErrorGet ret, { sp with sslNew := some ssl })

/-- `socketSSLDisconnect`: the error, `blockedOn` and the socket; `ret` is what `SSL_shutdown`
reports. -/
def socketSSLDisconnect (sp : SOCK) (ret : SslResult) : (Errno × SocketEventType) × SOCK :=
  match sp.sslConn with
  | some _ =>
    if ret = .success then ((0, .none), { sp with sslConn := none }) else (sslErrorGet ret, sp)
  | none => ((Errno.econnalreadysecured, .none), sp)

/-- `socketSend` goes through `sslSend` when a session is established, else through `clearSend`. -/
def socketSend (sp : SOCK) : IoCall := .socketSend sp.sslConn.isSome

/-- `socketReceive` goes through `sslReceive` when a session is established, else through
`clearReceive`. -/
def socketReceive (sp : SOCK) : IoCall := .socketReceive sp.sslConn.isSome

/-! ### Linking -/

/-- `sockEventTranslate` on Linux -/
def sockEventTranslate : SocketEventType → SocketEventType
  | .disconnect => .readable
  | .connect => .writable
  | t => t

/-- The `SocketEvent` of a `SOCK` that stands for a type; `none` is the NULL of the default case. -/
def socketEventSlot : SocketEventType → Option ConnEventClass
  | .readable => some .receive
  | .writable => some .send
  | .connect | .disconnect => some .connect
  | .none => none

/-- `SeLinkCe` -/
def seLinkCe (se : SocketEvent) (type : SocketEventType) (cbArg : EventId) : Option SocketEvent :=
  match se.arg with
  | none => some { se with arg := some cbArg, type := type, error := 0 }
  | some _ => none

/-- `SeUnlinkCe` -/
def seUnlinkCe (se : SocketEvent) : SocketEvent := { se with arg := none }

/-- `sockEventAdd`; `epollErr` is the errno of `epoll_ctl( EPOLL_CTL_ADD )`, `0` when it succeeds. -/
def sockEventAdd (se : SocketEvent) (epollErr : Errno) : Errno × SocketEvent :=
  if epollErr ≠ 0 then (epollErr, { se with inEngine := false })
  else (0, { se with inEngine := true })

/-- `SocketEventWaitEx` for a conn event: the error, and the socket. -/
def socketEventWaitEx (sp : SOCK) (type : SocketEventType) (cbArg : EventId) (epollErr : Errno) :
    Errno × SOCK :=
  match socketEventSlot (sockEventTranslate type) with
  | none => (Errno.econniobug, sp)
  | some k =>
    if sp.number = none then (Errno.enotsock, sp)
    else
      match seLinkCe (sp.event.get k) (sockEventTranslate type) cbArg with
      | none => (Errno.ebusy, sp)
      | some se =>
        match sockEventAdd se epollErr with
        | (0, se') => (0, { sp with event := sp.event.set k se' })
        | (err, se') => (err, { sp with event := sp.event.set k (seUnlinkCe se') })

/-! ### Leaving the engine -/

/-- `SocketEventComplete` (`sockunix.c`): TRUE when the event was in the engine and has been taken out. -/
def SocketEvent.complete (se : SocketEvent) : Bool × SocketEvent :=
  if se.inEngine then (true, { se with inEngine := false }) else (false, se)

/-- `AThreadBegin( &( se->cb.thread ) )` after a completion. -/
def beginIf (complete : Bool × SocketEvent) : SocketEvent :=
  if complete.1 then { complete.2 with begun := complete.2.begun + 1 } else complete.2

/-- `sockEventKill` -/
def sockEventKill (se : SocketEvent) : Bool × SocketEvent :=
  { se with error := Errno.ecanceled }.complete

/-- `SocketEventKill` with `READABLE`, `WRITABLE` or `CONNECT`, named by the slot it selects. -/
def socketEventKill (sp : SOCK) (k : ConnEventClass) : SOCK :=
  { sp with event := sp.event.set k (beginIf (sockEventKill (sp.event.get k))) }

/-- The bits `epoll_wait` reports. -/
inductive PollEvents where
  | ready
  | hup
  | nval
  | err
  deriving DecidableEq, Repr

/-- `_socketEventHandle`, called by the poll thread for an event that is in the engine. -/
def socketEventHandle (se : SocketEvent) (events : PollEvents) : Bool × SocketEvent :=
  let se' : SocketEvent := match events with
    | .ready => se
    | .hup => { se with error := Errno.econnreset }
    | .nval => { se with error := Errno.einval }
    | .err => { se with error := Errno.eio }
  match se'.type with
  | .readable | .writable => se'.complete
  | _ => { se' with error := Errno.einval }.complete

/-- The poll thread finds the event ready; an event that has left the engine is ignored. -/
def pollReady (sp : SOCK) (k : ConnEventClass) (events : PollEvents) : SOCK :=
  if (sp.event.get k).inEngine then
    { sp with event := sp.event.set k (beginIf (socketEventHandle (sp.event.get k) events)) }
  else sp

/-- The poll thread finds the event expired. -/
def pollTimeout (sp : SOCK) (k : ConnEventClass) : SOCK :=
  let se : SocketEvent := { sp.event.get k with error := Errno.etimedout }
  { sp with event := sp.event.set k (beginIf se.complete) }

/-- `HandleSocketEvent`: the arguments of the callback, and the socket with the event unlinked. -/
def handleSocketEvent (sp : SOCK) (k : ConnEventClass) :
    Option (EventId × SocketEventType × Errno × SOCK) :=
  let se := sp.event.get k
  match se.begun, se.arg with
  | n + 1, some cbArg =>
    some (cbArg, se.type, se.error,
      { sp with event := sp.event.set k (seUnlinkCe { se with begun := n }) })
  | _, _ => none

end Connio
