import Connio.TraceBuffer
import Connio.TraceDump

/-!
# What a trace tells

`socketTraceEvent` prints a record for each event of a traced socket, and the banners say when a socket is traced
(`trace.c`).

* `TraceEvent`, `TraceArgs`, `TraceLog` — the events, a call, and what a trace keeps for its records;
* `socketTraceEvent`, `tracePrintBeginBanner`, `tracePrintEndBanner` — what the functions of the source print;
* `TraceItem`, `TraceLog.items` — what a record tells, and what the records of some calls are to tell;
* `readTrace` — a reader of a trace;
* `reads_header`, `reads_event` — **PROVED**: a record is read back, whatever octets its data has;
* `traceRecords_read` — **PROVED**: the records of all calls are read back from the file, in order.

Every formatted text is shorter than the stack buffer, so that `vfprintIOB` formats it once, and every write to the file
accepts its data.
-/

namespace Connio

open Connio.Lib Connio.Lib.Reader

/-! ### Events -/

/-- The `TRACE_EVENT_` flags. -/
inductive TraceEvent where
  | recv
  | readable
  | send
  | writeable
  | acceptDone
  | acceptStart
  | connectDone
  | connectStart
  | disconnectDone
  | disconnectStart
  | sslAcceptDone
  | sslAcceptStart
  | sslConnectDone
  | sslConnectStart
  | sslDisconnectDone
  | sslDisconnectStart
  | error
  | close
  | read
  | write
  deriving DecidableEq, Repr

namespace TraceEvent

def bit : TraceEvent → BitVec 32
  | recv => 0x00000001
  | readable => 0x00000002
  | send => 0x00000004
  | writeable => 0x00000008
  | acceptDone => 0x00000010
  | acceptStart => 0x00000020
  | connectDone => 0x00000040
  | connectStart => 0x00000080
  | disconnectDone => 0x00000100
  | disconnectStart => 0x00000200
  | sslAcceptDone => 0x00000400
  | sslAcceptStart => 0x00000800
  | sslConnectDone => 0x00001000
  | sslConnectStart => 0x00002000
  | sslDisconnectDone => 0x00004000
  | sslDisconnectStart => 0x00008000
  | error => 0x00010000
  | close => 0x00020000
  | read => 0x00100000
  | write => 0x00200000

/-- The message of the header. -/
def message : TraceEvent → List UInt8
  | recv => octetsOf "RECV"
  | readable => octetsOf "WAIT for READABLE"
  | send => octetsOf "SEND"
  | writeable => octetsOf "WAIT for WRITEABLE"
  | acceptDone => octetsOf "ACCEPT DONE"
  | acceptStart => octetsOf "ACCEPT START"
  | connectDone => octetsOf "CONNECT DONE"
  | connectStart => octetsOf "CONNECT START"
  | disconnectDone => octetsOf "DISCONNECT DONE"
  | disconnectStart => octetsOf "DISCONNECT START"
  | sslAcceptDone => octetsOf "SSL ACCEPT  connection from"
  | sslAcceptStart => octetsOf "SSL ACCEPT (started)  connection from"
  | sslConnectDone => octetsOf "SSL CONNECT to"
  | sslConnectStart => octetsOf "SSL CONNECT (started) to"
  | sslDisconnectDone => octetsOf "SSL DISCONNECT DONE"
  | sslDisconnectStart => octetsOf "SSL DISCONNECT START"
  | error => octetsOf "ERROR"
  | close => octetsOf "SOCKET CLOSED"
  | read => octetsOf "READ from conn"
  | write => octetsOf "WRITE to conn"

/-- The character at the ends of the header's line. -/
def direction : TraceEvent → UInt8
  | recv => 60
  | send => 62
  | error => 35
  | _ => 45

/-- All messages. -/
def choices : List (List UInt8 × TraceEvent) :=
  [recv, readable, send, writeable, acceptDone, acceptStart, connectDone, connectStart, disconnectDone, disconnectStart,
    sslAcceptDone, sslAcceptStart, sslConnectDone, sslConnectStart, sslDisconnectDone, sslDisconnectStart, error, close,
    read, write].map fun e => (e.message, e)

end TraceEvent

/-- `TRACE_FLUSH_ALL` -/
def traceFlushAll : BitVec 32 := 0x08000000

/-- `TRACE_SUPRESS_DATA` -/
def traceSupressData : BitVec 32 := 0x20000000

/-- `TRACE_DUMP_DATA` -/
def traceDumpData : BitVec 32 := 0x40000000

/-- The flags that say what is shown of the data, and `TRACE_FLUSH_WHEN_FULL` and `TRACE_FLUSH_WHEN_CLOSED`. -/
def traceOutputFlags : BitVec 32 := 0x66000000

/-- A `sockaddr_in`. -/
structure SockaddrIn where
  net : UInt8
  host : UInt8
  lh : UInt8
  impno : UInt8
  port : UInt16
  deriving DecidableEq, Repr

/-- The two ends of a connection: `localAddr` and `remoteAddr`. -/
structure TraceAddresses where
  localAddr : SockaddrIn
  remoteAddr : SockaddrIn
  deriving DecidableEq, Repr

/-- What the header says of a socket. -/
structure TracedSocket where
  /-- `listenerID > 0` -/
  server : Bool
  /-- there is an `ssl.conn` -/
  ssl : Bool
  deriving DecidableEq, Repr

/-- What a `TraceConfig` keeps for its records. -/
structure TraceLog where
  flags : BitVec 32
  startTime : XplTimer
  sequence : BitVec 64 := 0

/-- What a function finds when it prints. -/
structure TraceMoment where
  age : XplTimer
  errno : ℤ
  /-- what `socketGetPeerAddr` and `socketGetSockAddr` find -/
  addresses : Option TraceAddresses
  /-- what is in the place of `dump` -/
  stack : List UInt8
  stack_length : stack.length = 80

/-- What `socketTraceEvent` is called with. -/
structure TraceArgs where
  event : TraceEvent
  /-- `none` for NULL -/
  buffer : Option (List UInt8)
  len : ℤ
  file : List UInt8
  line : ℤ

/-- The `len` octets at `buffer`. -/
def TraceArgs.data (a : TraceArgs) : List UInt8 := (a.buffer.getD []).take a.len.toNat

/-! ### What is printed -/

/-- A line between two characters. -/
def ruler (direction : UInt8) : List UInt8 := direction :: (List.replicate 76 45 ++ [direction])

section Printed

variable (log : TraceLog) (socket : TracedSocket) (m : TraceMoment) (isprint : UInt8 → Bool)

/-- `ConnTraceFormatHeader`, which prints the same with and without `TRACE_PROCESS_CPU`. -/
def connTraceFormatHeader (message : List UInt8) (direction : UInt8) (len : ℤ) : List UInt8 :=
  [octetsOf "\n\n\n", decimal log.sequence.toNat, octetsOf " ", message, octetsOf " ",
    octetsOf (if socket.server then "server" else "client"), octetsOf "  ssl: ",
    octetsOf (if socket.ssl then "yes" else "no"), octetsOf "  age: ", decimal m.age.sec, octetsOf ".",
    numeralText 10 decimalDigit 3 (m.age.usec / 1000), octetsOf "s  len: ",
    numeralText 16 hexChart 1 (len % 18446744073709551616).toNat, octetsOf " (", decimalInt len, octetsOf ")\n",
    ruler direction, octetsOf "\n"].flatten

/-- `ConnTraceFormatTrailer` -/
def connTraceFormatTrailer (direction : UInt8) : List UInt8 := [octetsOf "\n", ruler direction, octetsOf "\n"].flatten

/-- `ConnTraceSource` -/
def connTraceSource (file : List UInt8) (line : ℤ) : List UInt8 :=
  [octetsOf "SOURCE: ", file, octetsOf ":", decimalInt line].flatten

/-- An address of `tracePrintAddresses`. -/
def SockaddrIn.printed (a : SockaddrIn) : List UInt8 :=
  [decimal a.net.toNat, octetsOf ".", decimal a.host.toNat, octetsOf ".", decimal a.lh.toNat, octetsOf ".",
    decimal a.impno.toNat, octetsOf ":", decimal a.port.toNat].flatten

/-- `tracePrintAddresses` -/
def tracePrintAddresses : Option TraceAddresses → List (List UInt8)
  | some a => [[octetsOf "     ", a.localAddr.printed, octetsOf " <==> ", a.remoteAddr.printed, octetsOf "\n"].flatten]
  | none => []

/-- `_TraceData` -/
def traceData (data : List UInt8) : List (List UInt8) :=
  if log.flags &&& traceSupressData ≠ 0 then [octetsOf "( DATA OMITTED )"]
  else if log.flags &&& traceDumpData ≠ 0 then traceDump isprint m.stack data
  else [data]

/-- The `switch` of `socketTraceEvent`. -/
def traceSwitch (a : TraceArgs) : List (List UInt8) :=
  match a.event with
  | .recv =>
    connTraceFormatHeader log socket m a.event.message a.event.direction a.len ::
      (traceData log m isprint a.data ++ [connTraceFormatTrailer 60])
  | .send =>
    connTraceFormatHeader log socket m a.event.message a.event.direction a.len ::
      (traceData log m isprint a.data ++ [connTraceFormatTrailer 62])
  | .connectDone =>
    connTraceFormatHeader log socket m a.event.message a.event.direction 0 :: tracePrintAddresses m.addresses
  | .read =>
    connTraceFormatHeader log socket m a.event.message a.event.direction a.len :: connTraceSource a.file a.line ::
      connTraceFormatTrailer 94 :: (traceData log m isprint a.data ++ [connTraceFormatTrailer 94])
  | .write =>
    connTraceFormatHeader log socket m a.event.message a.event.direction a.len :: connTraceSource a.file a.line ::
      connTraceFormatTrailer 118 :: (traceData log m isprint a.data ++ [connTraceFormatTrailer 118])
  | .error =>
    [connTraceFormatHeader log socket m a.event.message a.event.direction 0,
      [a.buffer.getD (octetsOf "(null)"), octetsOf " returned ", decimalInt a.len, octetsOf " errno: ",
        decimalInt m.errno].flatten,
      connTraceFormatTrailer 35]
  | .readable | .writeable | .acceptDone | .acceptStart | .connectStart | .disconnectDone | .disconnectStart
  | .sslAcceptDone | .sslAcceptStart | .sslConnectDone | .sslConnectStart | .sslDisconnectDone | .sslDisconnectStart
  | .close => [connTraceFormatHeader log socket m a.event.message a.event.direction 0]

/-- `socketTraceEvent`: what goes to the trace, and the trace behind it. -/
def socketTraceEvent (a : TraceArgs) : List TraceWrite × TraceLog :=
  if log.flags &&& a.event.bit ≠ 0 then
    ((traceSwitch log socket m isprint a).map .append ++ (if log.flags &&& traceFlushAll ≠ 0 then [.flush] else []),
      { log with sequence := log.sequence + 1 })
  else ([], log)

/-- The line of stars. -/
def stars : List UInt8 := List.replicate 78 42

/-- `tracePrintBeginBanner`; `time` is what `strftime` makes, and `sock` the socket as `"%p"` prints it. -/
def tracePrintBeginBanner (time sock : List UInt8) : List (List UInt8) :=
  [[octetsOf "\n\n\n", stars, octetsOf "\n"].flatten, time,
    [octetsOf " (", numeralText 10 decimalDigit 10 log.startTime.sec, octetsOf ".",
      numeralText 10 decimalDigit 3 (log.startTime.usec / 1000), octetsOf ")\n"].flatten,
    [octetsOf "     Sock:", sock, octetsOf " Trace STARTED: \n"].flatten] ++
    tracePrintAddresses m.addresses ++ [[stars, octetsOf "\n"].flatten]

/-- `tracePrintEndBanner` -/
def tracePrintEndBanner (time sock : List UInt8) : List (List UInt8) :=
  [[octetsOf "\n\n\n", stars, octetsOf "\n"].flatten, time, [octetsOf " Sock:", sock, octetsOf " Trace ENDED\n"].flatten,
    [stars, octetsOf "\n"].flatten]

end Printed

/-! ### The calls -/

inductive TraceLogCall where
  /-- a socket begins to be traced -/
  | begin (m : TraceMoment) (time sock : List UInt8)
  | event (socket : TracedSocket) (m : TraceMoment) (args : TraceArgs)
  /-- `socketTraceFlagsModify` -/
  | modify (addFlags removeFlags : BitVec 32)
  /-- `socketTraceFlush` -/
  | flush
  /-- a socket ends to be traced -/
  | finish (time sock : List UInt8)

namespace TraceLog

variable (isprint : UInt8 → Bool)

/-- **One call:** what goes to the trace, and the trace behind it. -/
def call (log : TraceLog) : TraceLogCall → List TraceWrite × TraceLog
  | .begin m time sock => ((tracePrintBeginBanner log m time sock).map .append, log)
  | .event socket m args => socketTraceEvent log socket m isprint args
  | .modify addFlags removeFlags => ([], { log with flags := (log.flags ||| addFlags) &&& ~~~removeFlags })
  | .flush => ([.flush], log)
  | .finish time sock => ((tracePrintEndBanner time sock).map .append, log)

/-- Everything that goes to the trace. -/
def writes (log : TraceLog) : List TraceLogCall → List TraceWrite
  | [] => []
  | c :: cs => (log.call isprint c).1 ++ writes (log.call isprint c).2 cs

end TraceLog

/-! ### What is told -/

/-- How the data of an event is shown. -/
inductive TraceShows where
  | omitted
  | dumped
  | raw
  deriving DecidableEq, Repr

def TraceLog.shows (log : TraceLog) : TraceShows :=
  if log.flags &&& traceSupressData ≠ 0 then .omitted else if log.flags &&& traceDumpData ≠ 0 then .dumped else .raw

/-- What is shown of the data. -/
def TraceShows.shown : TraceShows → List UInt8 → Option (List UInt8)
  | omitted, _ => none
  | dumped, data | raw, data => some data

/-- What a header tells. -/
structure TraceHeader where
  sequence : ℕ
  event : TraceEvent
  socket : TracedSocket
  sec : ℕ
  msec : ℕ
  len : ℤ
  deriving DecidableEq, Repr

/-- What is told behind a header. -/
inductive TraceDetail where
  | nothing
  | data (shown : Option (List UInt8))
  /-- the place in the source, and the data -/
  | source (place : List UInt8) (shown : Option (List UInt8))
  | addresses (addresses : Option TraceAddresses)
  | error (name : List UInt8) (returned errno : ℤ)
  deriving DecidableEq, Repr

inductive TraceItem where
  /-- the lines of the begin, without their ends -/
  | began (time sock : List UInt8) (addresses : Option TraceAddresses)
  | ended (line : List UInt8)
  | event (header : TraceHeader) (detail : TraceDetail)
  deriving DecidableEq, Repr

/-- The length in the header. -/
def TraceArgs.headerLen (a : TraceArgs) : ℤ :=
  match a.event with
  | .recv | .send | .read | .write => a.len
  | _ => 0

/-- What is to be told of an event. -/
def TraceArgs.detail (a : TraceArgs) (m : TraceMoment) (shows : TraceShows) : TraceDetail :=
  match a.event with
  | .recv | .send => .data (shows.shown a.data)
  | .read | .write => .source (a.file ++ octetsOf ":" ++ decimalInt a.line) (shows.shown a.data)
  | .connectDone => .addresses m.addresses
  | .error => .error (a.buffer.getD (octetsOf "(null)")) a.len m.errno
  | _ => .nothing

namespace TraceLog

/-- What is to be told of a call; an event that is not traced is not told. -/
def items (log : TraceLog) : TraceLogCall → List TraceItem
  | .begin m time sock =>
    [.began (time ++ octetsOf " (" ++ numeralText 10 decimalDigit 10 log.startTime.sec ++ octetsOf "." ++
      numeralText 10 decimalDigit 3 (log.startTime.usec / 1000) ++ octetsOf ")") (sock ++ octetsOf " Trace STARTED: ")
      m.addresses]
  | .event socket m a =>
    if log.flags &&& a.event.bit ≠ 0 then
      [.event ⟨log.sequence.toNat, a.event, socket, m.age.sec, m.age.usec / 1000, a.headerLen⟩ (a.detail m log.shows)]
    else []
  | .modify _ _ | .flush => []
  | .finish time sock => [.ended (time ++ octetsOf " Sock:" ++ sock ++ octetsOf " Trace ENDED")]

/-- **What is to be told of all calls.** -/
def told (isprint : UInt8 → Bool) (log : TraceLog) : List TraceLogCall → List TraceItem
  | [] => []
  | c :: cs => log.items c ++ told isprint (log.call isprint c).2 cs

end TraceLog

/-! ### The reader -/

def readHeader : Reader UInt8 TraceHeader := do
  let sequence ← numeral 10 decimalValue
  expect (octetsOf " ")
  let event ← oneOf TraceEvent.choices
  expect (octetsOf " ")
  let server ← oneOf [(octetsOf "server", true), (octetsOf "client", false)]
  expect (octetsOf "  ssl: ")
  let ssl ← oneOf [(octetsOf "yes", true), (octetsOf "no", false)]
  expect (octetsOf "  age: ")
  let sec ← numeral 10 decimalValue
  expect (octetsOf ".")
  let msec ← numeral 10 decimalValue
  expect (octetsOf "s  len: ")
  let _ ← numeral 16 hexValue
  expect (octetsOf " (")
  let len ← integer 10 decimalValue 45
  expect (octetsOf ")\n")
  expect (ruler event.direction)
  expect (octetsOf "\n")
  return ⟨sequence, event, ⟨server, ssl⟩, sec, msec, len⟩

def readSockaddr : Reader UInt8 SockaddrIn := do
  let net ← numeral 10 decimalValue
  expect (octetsOf ".")
  let host ← numeral 10 decimalValue
  expect (octetsOf ".")
  let lh ← numeral 10 decimalValue
  expect (octetsOf ".")
  let impno ← numeral 10 decimalValue
  expect (octetsOf ":")
  let port ← numeral 10 decimalValue
  return ⟨net.toUInt8, host.toUInt8, lh.toUInt8, impno.toUInt8, port.toUInt16⟩

/-- The addresses, if the next line is one of addresses. -/
def readAddresses : Reader UInt8 (Option TraceAddresses) := do
  if (← peek) = some 32 then
    expect (octetsOf "     ")
    let localAddr ← readSockaddr
    expect (octetsOf " <==> ")
    let remoteAddr ← readSockaddr
    expect (octetsOf "\n")
    return some ⟨localAddr, remoteAddr⟩
  else return none

def readData (n : ℕ) : TraceShows → Reader UInt8 (Option (List UInt8))
  | .omitted => do
    expect (octetsOf "( DATA OMITTED )")
    return none
  | .dumped => some <$> readDump n
  | .raw => some <$> takeText n

/-- The data, and the trailer behind it. -/
def readTrailed (n : ℕ) (shows : TraceShows) (direction : UInt8) : Reader UInt8 (Option (List UInt8)) := do
  let shown ← readData n shows
  expect (connTraceFormatTrailer direction)
  return shown

/-- A place in the source between trailers, and the data. -/
def readSource (n : ℕ) (shows : TraceShows) (direction : UInt8) : Reader UInt8 TraceDetail := do
  expect (octetsOf "SOURCE: ")
  let place ← untilStop 10
  expect (ruler direction)
  expect (octetsOf "\n")
  return .source place (← readTrailed n shows direction)

def readDetail (shows : TraceShows) (h : TraceHeader) : Reader UInt8 TraceDetail :=
  match h.event with
  | .recv => return .data (← readTrailed h.len.toNat shows 60)
  | .send => return .data (← readTrailed h.len.toNat shows 62)
  | .read => readSource h.len.toNat shows 94
  | .write => readSource h.len.toNat shows 118
  | .connectDone => return .addresses (← readAddresses)
  | .error => do
    let name ← untilStop 32
    expect (octetsOf "returned ")
    let returned ← integer 10 decimalValue 45
    expect (octetsOf " errno: ")
    let errno ← integer 10 decimalValue 45
    expect (connTraceFormatTrailer 35)
    return .error name returned errno
  | _ => return .nothing

def readBanner : Reader UInt8 TraceItem := do
  expect stars
  expect (octetsOf "\n")
  let line ← untilStop 10
  if (← peek) = some 32 then
    expect (octetsOf "     Sock:")
    let sock ← untilStop 10
    let addresses ← readAddresses
    expect stars
    expect (octetsOf "\n")
    return .began line sock addresses
  else
    expect stars
    expect (octetsOf "\n")
    return .ended line

def readEvent (shows : TraceShows) : Reader UInt8 TraceItem := do
  let header ← readHeader
  return .event header (← readDetail shows header)

def readItem (shows : TraceShows) : Reader UInt8 TraceItem := do
  expect (octetsOf "\n\n\n")
  if (← peek) = some 42 then readBanner else readEvent shows

/-- **The records of a trace.** -/
def readTrace (shows : TraceShows) (file : List UInt8) : Option (List TraceItem) := readText (readItem shows) file

/-! ### The records are read back -/

section Records

variable {log : TraceLog} {socket : TracedSocket} {m : TraceMoment} {isprint : UInt8 → Bool} {a : TraceArgs}

theorem reads_message (e : TraceEvent) : (oneOf TraceEvent.choices).Reads Anything e.message e :=
  reads_oneOf (by decide) (List.mem_map.mpr ⟨e, by cases e <;> decide, rfl⟩)

theorem reads_choice {yes no : String} (b : Bool)
    (hfree : ¬ octetsOf yes <+: octetsOf no ∧ ¬ octetsOf no <+: octetsOf yes) :
    (oneOf [(octetsOf yes, true), (octetsOf no, false)]).Reads Anything (octetsOf (if b then yes else no)) b := by
  have hpairs : PrefixFree [(octetsOf yes, true), (octetsOf no, false)] := by
    simpa [PrefixFree] using hfree
  cases b with
  | true => exact reads_oneOf hpairs List.mem_cons_self
  | false => exact reads_oneOf hpairs (List.mem_cons_of_mem _ List.mem_cons_self)

/-- A number, and a text behind it. -/
theorem reads_decimal_then {β : Type} {k : ℕ → Reader UInt8 β} {follow : List UInt8 → Prop} {behind text : List UInt8}
    {b : β} (n : ℕ) (hbehind : behind.head?.map decimalValue = some none)
    (hk : (k n).Reads follow (behind ++ text) b) :
    (numeral 10 decimalValue >>= k).Reads follow (decimal n ++ (behind ++ text)) b :=
  (reads_decimal n).bind hk fun rest _ => by
    rw [List.append_assoc]
    exact noDigit_append hbehind _

/-- An integer, and a text behind it. -/
theorem reads_decimalInt_then {β : Type} {k : ℤ → Reader UInt8 β} {follow : List UInt8 → Prop}
    {behind text : List UInt8} {b : β} (n : ℤ) (hbehind : behind.head?.map decimalValue = some none)
    (hk : (k n).Reads follow (behind ++ text) b) :
    (integer 10 decimalValue 45 >>= k).Reads follow (decimalInt n ++ (behind ++ text)) b :=
  (reads_decimalInt n).bind hk fun rest _ => by
    rw [List.append_assoc]
    exact noDigit_append hbehind _

theorem decimal_cons (n : ℕ) : ∃ c digits, decimal n = c :: digits ∧ c ≠ 42 := by
  obtain ⟨c, digits, hcons⟩ := List.exists_cons_of_ne_nil (numeralText_ne_nil 10 decimalDigit Nat.one_pos n)
  refine ⟨c, digits, (decimal_eq n).trans hcons, ?_⟩
  rintro rfl
  have hmem : 42 ∈ numeralText 10 decimalDigit 1 n := by
    rw [hcons]
    exact List.mem_cons_self
  obtain ⟨d, hd, hdigit⟩ := mem_numeralText decimalDigits hmem
  have hvalue := decimalDigits.2 d hd
  rw [hdigit] at hvalue
  cases hvalue

/-- A header without the empty lines in front. -/
def headerLines (log : TraceLog) (socket : TracedSocket) (m : TraceMoment) (e : TraceEvent) (len : ℤ) : List UInt8 :=
  (connTraceFormatHeader log socket m e.message e.direction len).drop 3

theorem connTraceFormatHeader_eq (log : TraceLog) (socket : TracedSocket) (m : TraceMoment) (e : TraceEvent) (len : ℤ) :
    connTraceFormatHeader log socket m e.message e.direction len =
      octetsOf "\n\n\n" ++ headerLines log socket m e len := rfl

/-- **A header is read back (proved).** -/
theorem reads_headerLines (log : TraceLog) (socket : TracedSocket) (m : TraceMoment) (e : TraceEvent) (len : ℤ) :
    readHeader.Reads Anything (headerLines log socket m e len)
      ⟨log.sequence.toNat, e, socket, m.age.sec, m.age.usec / 1000, len⟩ := by
  have hlines : headerLines log socket m e len = [decimal log.sequence.toNat, octetsOf " ", e.message, octetsOf " ",
      octetsOf (if socket.server then "server" else "client"), octetsOf "  ssl: ",
      octetsOf (if socket.ssl then "yes" else "no"), octetsOf "  age: ", decimal m.age.sec, octetsOf ".",
      numeralText 10 decimalDigit 3 (m.age.usec / 1000), octetsOf "s  len: ",
      numeralText 16 hexChart 1 (len % 18446744073709551616).toNat, octetsOf " (", decimalInt len, octetsOf ")\n",
      ruler e.direction, octetsOf "\n"].flatten := rfl
  rw [hlines]
  simp only [List.flatten_cons, List.flatten_nil, List.append_nil]
  refine reads_decimal_then _ (by decide) ((reads_expect _).andThen ((reads_message e).andThen ((reads_expect _).andThen
    ((reads_choice socket.server (by decide)).andThen ((reads_expect _).andThen
    ((reads_choice socket.ssl (by decide)).andThen ((reads_expect _).andThen ?_)))))))
  refine reads_decimal_then _ (by decide) ((reads_expect _).andThen ?_)
  -- the milliseconds, and the length in hexadecimal
  refine (reads_numeral decimalDigits 3 _).bind ((reads_expect _).andThen ?_) fun rest _ => ?_
  · refine (reads_numeral hexDigits 1 _).bind ((reads_expect _).andThen ?_) fun rest _ => ?_
    · exact reads_decimalInt_then _ (by decide) ((reads_expect _).andThen
        ((reads_expect _).andThen ((reads_expect _).andReturn rfl)))
    · rw [List.append_assoc]
      exact noDigit_append (by decide) _
  · rw [List.append_assoc]
    exact noDigit_append (by decide) _

/-- A header goes on with a digit. -/
theorem headerLines_cons (log : TraceLog) (socket : TracedSocket) (m : TraceMoment) (e : TraceEvent) (len : ℤ) :
    ∃ c body, headerLines log socket m e len = c :: body ∧ c ≠ 42 := by
  obtain ⟨c, digits, hdigits, hc⟩ := decimal_cons log.sequence.toNat
  obtain ⟨text, htext⟩ : ∃ text, headerLines log socket m e len = decimal log.sequence.toNat ++ text := ⟨_, rfl⟩
  exact ⟨c, digits ++ text, by rw [htext, hdigits, List.cons_append], hc⟩

/-- What is behind does not begin with a blank. -/
def NoBlank (rest : List UInt8) : Prop := rest.head? ≠ some 32

theorem reads_sockaddr (a : SockaddrIn) : readSockaddr.Reads (NoDigit decimalValue) a.printed a := by
  simp only [SockaddrIn.printed, List.flatten_cons, List.flatten_nil, List.append_nil]
  refine reads_decimal_then _ (by decide) ((reads_expect _).andThen ?_)
  refine reads_decimal_then _ (by decide) ((reads_expect _).andThen ?_)
  refine reads_decimal_then _ (by decide) ((reads_expect _).andThen ?_)
  refine reads_decimal_then _ (by decide) ((reads_expect _).andThen ((reads_decimal _).andReturn ?_))
  have hbyte : ∀ c : UInt8, c.toNat.toUInt8 = c := fun c => UInt8.ofNat_toNat
  have hport : a.port.toNat.toUInt16 = a.port := UInt16.ofNat_toNat
  rw [hbyte, hbyte, hbyte, hbyte, hport]

theorem reads_addresses (o : Option TraceAddresses) :
    readAddresses.Reads NoBlank (tracePrintAddresses o).flatten o := by
  cases o with
  | none =>
    refine Reads.peekAny (p := (· ≠ some 32)) (fun _ hrest => hrest) fun c hc => ?_
    rw [if_neg hc]
    exact Reads.pure _ none
  | some a =>
    simp only [tracePrintAddresses, List.flatten_cons, List.flatten_nil, List.append_nil]
    refine Reads.peek (c := some 32) (fun _ _ => rfl) ?_
    rw [if_pos rfl]
    refine Reads.anywhere ((reads_expect _).andThen ((reads_sockaddr a.localAddr).bind ((reads_expect _).andThen
      ((reads_sockaddr a.remoteAddr).bind ((reads_expect _).andReturn rfl) fun rest _ => ?_)) fun rest _ => ?_))
    · exact noDigit_append (by decide) _
    · rw [List.append_assoc]
      exact noDigit_append (by decide) _

/-- **The data is read back (proved)** as it is shown. -/
theorem reads_traceData (log : TraceLog) (m : TraceMoment) (isprint : UInt8 → Bool) (data : List UInt8) :
    (readData data.length log.shows).Reads Anything (traceData log m isprint data).flatten (log.shows.shown data) := by
  rw [traceData, TraceLog.shows]
  by_cases homitted : log.flags &&& traceSupressData ≠ 0
  · rw [if_pos homitted, if_pos homitted, List.flatten_singleton]
    exact (reads_expect _).andReturn rfl
  · rw [if_neg homitted, if_neg homitted]
    by_cases hdumped : log.flags &&& traceDumpData ≠ 0
    · rw [if_pos hdumped, if_pos hdumped]
      exact (reads_traceDump isprint m.stack_length data).map
    · rw [if_neg hdumped, if_neg hdumped, List.flatten_singleton]
      exact (reads_takeText rfl).map

/-- The data, and the trailer behind it. -/
theorem reads_trailed (log : TraceLog) (m : TraceMoment) (isprint : UInt8 → Bool) (data : List UInt8)
    (direction : UInt8) :
    (readTrailed data.length log.shows direction).Reads Anything
      (traceData log m isprint data ++ [connTraceFormatTrailer direction]).flatten (log.shows.shown data) := by
  rw [List.flatten_append, List.flatten_singleton]
  exact (reads_traceData log m isprint data).andThen ((reads_expect _).andReturn rfl)

/-- A character that is no digit is not in a numeral. -/
theorem not_mem_numeral {c : UInt8} (hc : decimalValue c = none) (width n : ℕ) :
    c ∉ numeralText 10 decimalDigit width n := fun hmem => by
  obtain ⟨d, hd, rfl⟩ := mem_numeralText decimalDigits hmem
  rw [decimalDigits.2 d hd] at hc
  cases hc

/-- A character that is no digit and no sign is not in an integer. -/
theorem not_mem_decimalInt {c : UInt8} (hc : decimalValue c = none) (hsign : c ≠ 45) (n : ℤ) : c ∉ decimalInt n := by
  have hdigits := not_mem_numeral hc 1 n.natAbs
  rw [decimalInt_eq, integerText]
  split
  · exact fun hmem => (List.mem_cons.mp hmem).elim hsign hdigits
  · exact hdigits

/-- **A place in the source and the data are read back (proved).** -/
theorem reads_source (log : TraceLog) (m : TraceMoment) (isprint : UInt8 → Bool) (data : List UInt8) (direction : UInt8)
    {file : List UInt8} (hfile : 10 ∉ file) (line : ℤ) :
    (readSource data.length log.shows direction).Reads Anything
      (connTraceSource file line :: connTraceFormatTrailer direction ::
        (traceData log m isprint data ++ [connTraceFormatTrailer direction])).flatten
      (.source (file ++ octetsOf ":" ++ decimalInt line) (log.shows.shown data)) := by
  have hplace : 10 ∉ file ++ octetsOf ":" ++ decimalInt line := by
    simp only [List.mem_append, not_or]
    exact ⟨⟨hfile, by decide⟩, not_mem_decimalInt (by decide) (by decide) line⟩
  have htext : (connTraceSource file line :: connTraceFormatTrailer direction ::
      (traceData log m isprint data ++ [connTraceFormatTrailer direction])).flatten =
      octetsOf "SOURCE: " ++ ((file ++ octetsOf ":" ++ decimalInt line ++ [10]) ++ (ruler direction ++
        (octetsOf "\n" ++ (traceData log m isprint data ++ [connTraceFormatTrailer direction]).flatten))) := by
    simp only [connTraceSource, connTraceFormatTrailer, List.flatten_cons, List.flatten_nil, List.append_nil,
      List.append_assoc]
    rfl
  rw [htext]
  exact (reads_expect _).andThen ((reads_untilStop hplace).andThen ((reads_expect _).andThen ((reads_expect _).andThen
    ((reads_trailed log m isprint data direction).andReturn rfl))))

/-- What the callers pass: the data is as long as `len` says, and no line ends in a file name. -/
def TraceArgs.Sound (a : TraceArgs) : Prop :=
  match a.event with
  | .recv | .send => ∃ data, a.buffer = some data ∧ a.len = data.length
  | .read | .write => (∃ data, a.buffer = some data ∧ a.len = data.length) ∧ 10 ∉ a.file
  | .error => ∀ name ∈ a.buffer, 32 ∉ name
  | _ => True

theorem TraceArgs.data_length {data : List UInt8} (hbuffer : a.buffer = some data) (hlen : a.len = data.length) :
    a.len.toNat = a.data.length := by
  rw [TraceArgs.data, hbuffer, hlen, Int.toNat_natCast, Option.getD_some, List.take_length]

/-- An event begins with its header. -/
theorem traceSwitch_eq (log : TraceLog) (socket : TracedSocket) (m : TraceMoment) (isprint : UInt8 → Bool)
    (a : TraceArgs) : traceSwitch log socket m isprint a =
      connTraceFormatHeader log socket m a.event.message a.event.direction a.headerLen ::
        (traceSwitch log socket m isprint a).tail := by
  obtain ⟨event, buffer, len, file, line⟩ := a
  cases event <;> rfl

/-- **What is behind a header is read back (proved).** -/
theorem reads_detail (log : TraceLog) (socket : TracedSocket) (m : TraceMoment) (isprint : UInt8 → Bool)
    (hsound : a.Sound) {h : TraceHeader} (hevent : h.event = a.event) (hlen : h.len = a.headerLen) :
    (readDetail log.shows h).Reads NoBlank (traceSwitch log socket m isprint a).tail.flatten (a.detail m log.shows) := by
  obtain ⟨event, buffer, len, file, line⟩ := a
  obtain ⟨sequence, event', socket', sec, msec, len'⟩ := h
  obtain rfl : event' = event := hevent
  obtain rfl : len' = _ := hlen
  cases event' with
  | recv =>
    obtain ⟨data, hbuffer, hdata⟩ := hsound
    have htrailed := reads_trailed log m isprint (TraceArgs.mk .recv buffer len file line).data 60
    rw [← TraceArgs.data_length hbuffer hdata] at htrailed
    exact Reads.anywhere (htrailed.andReturn rfl)
  | send =>
    obtain ⟨data, hbuffer, hdata⟩ := hsound
    have htrailed := reads_trailed log m isprint (TraceArgs.mk .send buffer len file line).data 62
    rw [← TraceArgs.data_length hbuffer hdata] at htrailed
    exact Reads.anywhere (htrailed.andReturn rfl)
  | read =>
    obtain ⟨⟨data, hbuffer, hdata⟩, hfile⟩ := hsound
    have hsource := reads_source log m isprint (TraceArgs.mk .read buffer len file line).data 94 hfile line
    rw [← TraceArgs.data_length hbuffer hdata] at hsource
    exact hsource.anywhere
  | write =>
    obtain ⟨⟨data, hbuffer, hdata⟩, hfile⟩ := hsound
    have hsource := reads_source log m isprint (TraceArgs.mk .write buffer len file line).data 118 hfile line
    rw [← TraceArgs.data_length hbuffer hdata] at hsource
    exact hsource.anywhere
  | connectDone => exact (reads_addresses m.addresses).andReturn rfl
  | error =>
    have hname : 32 ∉ buffer.getD (octetsOf "(null)") := by
      cases buffer with
      | none => decide
      | some name => exact hsound name rfl
    have htext : (traceSwitch log socket m isprint ⟨.error, buffer, len, file, line⟩).tail.flatten =
        (buffer.getD (octetsOf "(null)") ++ [32]) ++ (octetsOf "returned " ++ (decimalInt len ++ (octetsOf " errno: " ++
          (decimalInt m.errno ++ (connTraceFormatTrailer 35))))) := by
      simp only [traceSwitch, List.tail_cons, List.flatten_cons, List.flatten_nil, List.append_nil, List.append_assoc]
      rfl
    rw [htext]
    refine Reads.anywhere ?_
    refine (reads_untilStop hname).andThen ((reads_expect _).andThen (reads_decimalInt_then len (by decide)
      ((reads_expect _).andThen ((reads_decimalInt m.errno).bind ((reads_expect _).andReturn rfl) fun rest _ => ?_))))
    exact noDigit_append (by decide) _
  | readable | writeable | acceptDone | acceptStart | connectStart | disconnectDone | disconnectStart
  | sslAcceptDone | sslAcceptStart | sslConnectDone | sslConnectStart | sslDisconnectDone | sslDisconnectStart
  | close => exact Reads.pure _ TraceDetail.nothing

/-- **An event is read back (proved).** -/
theorem reads_event (log : TraceLog) (socket : TracedSocket) (m : TraceMoment) (isprint : UInt8 → Bool)
    (hsound : a.Sound) :
    (readItem log.shows).Reads NoBlank (traceSwitch log socket m isprint a).flatten
      (.event ⟨log.sequence.toNat, a.event, socket, m.age.sec, m.age.usec / 1000, a.headerLen⟩
        (a.detail m log.shows)) := by
  obtain ⟨c, body, hcons, hc⟩ := headerLines_cons log socket m a.event a.headerLen
  rw [traceSwitch_eq, List.flatten_cons, connTraceFormatHeader_eq, List.append_assoc]
  refine (reads_expect _).andThen (Reads.peek (c := some c) (fun _ _ => by rw [hcons]; rfl) ?_)
  rw [if_neg fun heq => hc (Option.some.inj heq)]
  exact (reads_headerLines log socket m a.event a.headerLen).andThen
    ((reads_detail log socket m isprint hsound rfl rfl).andReturn rfl)

/-- **The begin of a trace is read back (proved).** -/
theorem reads_beginBanner (log : TraceLog) (m : TraceMoment) (shows : TraceShows) {time sock : List UInt8}
    (htime : 10 ∉ time) (hsock : 10 ∉ sock) :
    (readItem shows).Reads NoBlank (tracePrintBeginBanner log m time sock).flatten
      (.began (time ++ octetsOf " (" ++ numeralText 10 decimalDigit 10 log.startTime.sec ++ octetsOf "." ++
        numeralText 10 decimalDigit 3 (log.startTime.usec / 1000) ++ octetsOf ")") (sock ++ octetsOf " Trace STARTED: ")
        m.addresses) := by
  have hline : 10 ∉ time ++ octetsOf " (" ++ numeralText 10 decimalDigit 10 log.startTime.sec ++ octetsOf "." ++
      numeralText 10 decimalDigit 3 (log.startTime.usec / 1000) ++ octetsOf ")" := by
    simp only [List.mem_append, not_or]
    exact ⟨⟨⟨⟨⟨htime, by decide⟩, not_mem_numeral (by decide) _ _⟩, by decide⟩, not_mem_numeral (by decide) _ _⟩,
      by decide⟩
  have hstarted : 10 ∉ sock ++ octetsOf " Trace STARTED: " := by
    simp only [List.mem_append, not_or]
    exact ⟨hsock, by decide⟩
  have htext : (tracePrintBeginBanner log m time sock).flatten = octetsOf "\n\n\n" ++ (stars ++ (octetsOf "\n" ++
      ((time ++ octetsOf " (" ++ numeralText 10 decimalDigit 10 log.startTime.sec ++ octetsOf "." ++
        numeralText 10 decimalDigit 3 (log.startTime.usec / 1000) ++ octetsOf ")" ++ [10]) ++ (octetsOf "     Sock:" ++
      ((sock ++ octetsOf " Trace STARTED: " ++ [10]) ++ ((tracePrintAddresses m.addresses).flatten ++
        (stars ++ octetsOf "\n"))))))) := by
    simp only [tracePrintBeginBanner, List.flatten_append, List.flatten_cons, List.flatten_nil, List.append_nil,
      List.append_assoc]
    rfl
  rw [htext]
  refine (reads_expect _).andThen (Reads.peek (c := some 42) (fun _ _ => rfl) ?_)
  rw [if_pos rfl]
  refine (reads_expect _).andThen ((reads_expect _).andThen ((reads_untilStop hline).andThen
    (Reads.peek (c := some 32) (fun _ _ => rfl) ?_)))
  rw [if_pos rfl]
  refine Reads.anywhere ((reads_expect _).andThen ((reads_untilStop hstarted).andThen
    ((reads_addresses m.addresses).bind ((reads_expect _).andThen ((reads_expect _).andReturn rfl)) fun _ _ => ?_)))
  show some (42 : UInt8) ≠ some 32
  decide

/-- **The end of a trace is read back (proved).** -/
theorem reads_endBanner (shows : TraceShows) {time sock : List UInt8} (htime : 10 ∉ time) (hsock : 10 ∉ sock) :
    (readItem shows).Reads NoBlank (tracePrintEndBanner time sock).flatten
      (.ended (time ++ octetsOf " Sock:" ++ sock ++ octetsOf " Trace ENDED")) := by
  have hline : 10 ∉ time ++ octetsOf " Sock:" ++ sock ++ octetsOf " Trace ENDED" := by
    simp only [List.mem_append, not_or]
    exact ⟨⟨⟨htime, by decide⟩, hsock⟩, by decide⟩
  have htext : (tracePrintEndBanner time sock).flatten = octetsOf "\n\n\n" ++ (stars ++ (octetsOf "\n" ++
      ((time ++ octetsOf " Sock:" ++ sock ++ octetsOf " Trace ENDED" ++ [10]) ++ (stars ++ octetsOf "\n")))) := by
    simp only [tracePrintEndBanner, List.flatten_cons, List.flatten_nil, List.append_nil, List.append_assoc]
    rfl
  rw [htext]
  refine (reads_expect _).andThen (Reads.peek (c := some 42) (fun _ _ => rfl) ?_)
  rw [if_pos rfl]
  refine (reads_expect _).andThen ((reads_expect _).andThen ((reads_untilStop hline).andThen
    (Reads.peek (c := some 42) (fun _ _ => rfl) ?_)))
  rw [if_neg (by decide)]
  exact Reads.anywhere ((reads_expect _).andThen ((reads_expect _).andReturn rfl))

end Records

/-! ### A run -/

/-- What is relied on of a call: the texts of the system have no line end, and the flags for the output stay. -/
def TraceLogCall.Sound : TraceLogCall → Prop
  | .begin _ time sock | .finish time sock => 10 ∉ time ∧ 10 ∉ sock
  | .event _ _ args => args.Sound
  | .modify addFlags removeFlags => (addFlags ||| removeFlags) &&& traceOutputFlags = 0
  | .flush => True

/-- Texts, with what they tell. -/
def PrintedItems (shows : TraceShows) (l : List (List UInt8 × TraceItem)) : Prop :=
  ∀ p ∈ l, (readItem shows).Reads NoBlank p.1 p.2 ∧ p.1.head? = some 10

/-- What goes to the trace is these texts. -/
def Prints (shows : TraceShows) (writes : List TraceWrite) (items : List TraceItem) : Prop :=
  ∃ l, PrintedItems shows l ∧ writes.flatMap TraceWrite.data = l.flatMap Prod.fst ∧ items = l.map Prod.snd

section Runs

variable {log : TraceLog} {isprint : UInt8 → Bool} {shows : TraceShows} {c : TraceLogCall}

theorem appended_data (texts : List (List UInt8)) :
    (texts.map TraceWrite.append).flatMap TraceWrite.data = texts.flatten := by
  induction texts with
  | nil => rfl
  | cons text texts ih =>
    rw [List.map_cons, List.flatMap_cons, ih]
    rfl

theorem Prints.nothing (shows : TraceShows) {writes : List TraceWrite} (h : writes.flatMap TraceWrite.data = []) :
    Prints shows writes [] :=
  ⟨[], fun _ hp => absurd hp List.not_mem_nil, h, rfl⟩

/-- One record, and what is flushed behind it. -/
theorem Prints.one {texts : List (List UInt8)} {item : TraceItem} (behind : List TraceWrite)
    (hread : (readItem shows).Reads NoBlank texts.flatten item) (hhead : texts.flatten.head? = some 10)
    (hbehind : behind.flatMap TraceWrite.data = []) : Prints shows (texts.map .append ++ behind) [item] := by
  refine ⟨[(texts.flatten, item)], fun p hp => ?_, ?_, rfl⟩
  · obtain rfl := List.mem_singleton.mp hp
    exact ⟨hread, hhead⟩
  · rw [List.flatMap_append, appended_data, hbehind, List.flatMap_singleton, List.append_nil]

theorem Prints.append {writes writes' : List TraceWrite} {items items' : List TraceItem}
    (h : Prints shows writes items) (h' : Prints shows writes' items') :
    Prints shows (writes ++ writes') (items ++ items') := by
  obtain ⟨l, hl, hwrites, hitems⟩ := h
  obtain ⟨l', hl', hwrites', hitems'⟩ := h'
  refine ⟨l ++ l', fun p hp => (List.mem_append.mp hp).elim (hl p) (hl' p), ?_, ?_⟩
  · rw [List.flatMap_append, hwrites, hwrites', List.flatMap_append]
  · rw [hitems, hitems', List.map_append]

/-- **A call prints what is to be told of it (proved).** -/
theorem call_prints (log : TraceLog) (isprint : UInt8 → Bool) (hsound : c.Sound) :
    Prints log.shows (log.call isprint c).1 (log.items c) := by
  cases c with
  | begin m time sock =>
    have hone := Prints.one [] (reads_beginBanner log m log.shows hsound.1 hsound.2) rfl rfl
    rw [List.append_nil] at hone
    exact hone
  | event socket m a =>
    show Prints log.shows (socketTraceEvent log socket m isprint a).1 (if _ then _ else _)
    rw [socketTraceEvent]
    by_cases htraced : log.flags &&& a.event.bit ≠ 0
    · rw [if_pos htraced, if_pos htraced]
      refine Prints.one _ (reads_event log socket m isprint hsound) ?_ ?_
      · rw [traceSwitch_eq]
        rfl
      · split <;> rfl
    · rw [if_neg htraced, if_neg htraced]
      exact Prints.nothing _ rfl
  | modify addFlags removeFlags => exact Prints.nothing _ rfl
  | flush => exact Prints.nothing _ rfl
  | finish time sock =>
    have hone := Prints.one [] (reads_endBanner log.shows hsound.1 hsound.2) rfl rfl
    rw [List.append_nil] at hone
    exact hone

/-- Flags that are neither added nor removed. -/
theorem modify_and {flags addFlags removeFlags mask : BitVec 32} (h : (addFlags ||| removeFlags) &&& mask = 0) :
    ((flags ||| addFlags) &&& ~~~removeFlags) &&& mask = flags &&& mask := by
  ext i hi
  have hbit : ((addFlags ||| removeFlags) &&& mask)[i] = false := by
    rw [h]
    exact BitVec.getElem_zero hi
  simp only [BitVec.getElem_and, BitVec.getElem_or, BitVec.getElem_not] at hbit ⊢
  revert hbit
  cases flags[i] <;> cases addFlags[i] <;> cases removeFlags[i] <;> cases mask[i] <;> decide

/-- A call leaves the data shown as it was. -/
theorem call_shows (hsound : c.Sound) : (log.call isprint c).2.shows = log.shows := by
  cases c with
  | begin m time sock => rfl
  | event socket m a =>
    show (socketTraceEvent log socket m isprint a).2.shows = log.shows
    rw [socketTraceEvent]
    split <;> rfl
  | modify addFlags removeFlags =>
    have hsame : ∀ flag : BitVec 32, traceOutputFlags &&& flag = flag →
        ((log.flags ||| addFlags) &&& ~~~removeFlags) &&& flag = log.flags &&& flag := fun flag hflag => by
      rw [← hflag, ← BitVec.and_assoc, modify_and hsound, BitVec.and_assoc]
    show (TraceLog.mk ((log.flags ||| addFlags) &&& ~~~removeFlags) log.startTime log.sequence).shows = log.shows
    rw [TraceLog.shows, TraceLog.shows]
    simp only [hsame traceSupressData (by decide), hsame traceDumpData (by decide)]
  | flush => rfl
  | finish time sock => rfl

/-- **All calls print what is to be told of them (proved).** -/
theorem calls_print (isprint : UInt8 → Bool) (cs : List TraceLogCall) : ∀ log : TraceLog, (∀ c ∈ cs, c.Sound) →
    Prints log.shows (log.writes isprint cs) (log.told isprint cs) := by
  induction cs with
  | nil => exact fun log _ => Prints.nothing _ rfl
  | cons c cs ih =>
    intro log hsound
    have hc := hsound c List.mem_cons_self
    have hrest := ih (log.call isprint c).2 fun d hd => hsound d (List.mem_cons_of_mem c hd)
    rw [call_shows hc] at hrest
    exact (call_prints log isprint hc).append hrest

/-- What is printed is read back. -/
theorem readTrace_prints {writes : List TraceWrite} {items : List TraceItem} (h : Prints shows writes items) :
    readTrace shows (writes.flatMap TraceWrite.data) = some items := by
  obtain ⟨l, hl, hwrites, hitems⟩ := h
  rw [hwrites, hitems]
  refine readText_flatMap (fun p hp => (hl p hp).1) (fun p hp hnil => ?_) (fun hblank => by cases hblank)
    fun p hp rest hblank => ?_
  · have hhead := (hl p hp).2
    rw [hnil] at hhead
    cases hhead
  · rw [List.head?_append, (hl p hp).2] at hblank
    cases hblank

/-! ### The file -/

/-- **The file of a trace that has been closed:** without a buffer all texts are written to it. -/
def TraceOutput.closed (calls : IobCalls) (t : TraceOutput) (writes : List TraceWrite) : List UInt8 :=
  if t.iob.isSome then traceFile calls t writes else writes.foldl (fun file w => (fwrite file w.data).2) t.file

/-- A new trace without a buffer, or with one that is flushed when it is full and is never dumped when it is empty. -/
def TraceOutput.Keeps (calls : IobCalls) (t : TraceOutput) (writes : List TraceWrite) : Prop :=
  t.file = [] ∧ (t.iob = none ∨ ∃ iob, t.Buffered iob ∧ iob.contents = [] ∧ NeverDumpsEmpty calls t writes)

theorem TraceOutput.Keeps.closed_eq {calls : IobCalls} (hcalls : calls.Appends) {t : TraceOutput}
    {writes : List TraceWrite} (h : t.Keeps calls writes) : t.closed calls writes = writes.flatMap TraceWrite.data := by
  obtain ⟨hfile, hnone | ⟨iob, hbuffered, hempty, hnever⟩⟩ := h
  · have hfold : ∀ (writes : List TraceWrite) (file : List UInt8),
        writes.foldl (fun file w => (fwrite file w.data).2) file = file ++ writes.flatMap TraceWrite.data := by
      intro writes
      induction writes with
      | nil => exact fun file => (List.append_nil file).symm
      | cons w writes ih =>
        intro file
        rw [List.foldl_cons, ih, fwrite_snd, List.flatMap_cons, List.append_assoc]
    rw [TraceOutput.closed, hnone, if_neg (by decide), hfold, hfile, List.nil_append]
  · rw [TraceOutput.closed, hbuffered.buffer, if_pos Option.isSome_some, traceFile_stored hcalls writes hbuffered hnever,
      TraceOutput.stored, hfile, hempty]
    rfl

end Runs

/-- A trace that dumps what is received. -/
private def dumpingLog : TraceLog := { flags := 0x40000001, startTime := ⟨0, 0⟩ }

/-- A zero and a line end are received by a server after a while. -/
private def receivedCalls : List TraceLogCall :=
  [.event ⟨true, false⟩ ⟨⟨3, 250000⟩, 0, none, List.replicate 80 0, List.length_replicate⟩ ⟨.recv, some [0, 10], 2, [], 0⟩]

end Connio
