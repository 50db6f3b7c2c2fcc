import Qunet.Database.QunetDatabase
import Qunet.Connection.Url
import Qunet.Lib.Task
import Mathlib.Data.List.Sort

/-!
# The state of a connection (`Connection.hpp`)

The worker is a task over the state `Connection`, which it shares with the callers of the public functions. Every access
to an atomic, a lock or a channel is a step of its own.

* `Channel` : a bounded `arc::mpsc` channel;
* `Socket`, `ConnectionSettings`, `ConnectionData`, `Connection`; `Event`, what has happened so far;
* `Answer` : what the worker is told from outside; `Worker`, the tasks of the worker;
* `setState`, `resetConnectionState`, `onFatalError` : by these the worker changes the state.
-/

namespace Qunet
open Lib

/-! ## Channels -/

structure Channel (capacity : Nat) (α : Type) where
  items : List α
  bounded : items.length ≤ capacity

namespace Channel
variable {capacity : Nat} {α : Type}

def empty : Channel capacity α := ⟨[], Nat.zero_le _⟩

def trySend (c : Channel capacity α) (a : α) : Option (Channel capacity α) :=
  if h : c.items.length < capacity then some ⟨c.items ++ [a], by rw [List.length_append]; exact h⟩ else none

/-- Take the front; nothing while the channel is empty. -/
def recv : Channel capacity α → Option (α × Channel capacity α)
  | ⟨[], _⟩ => none
  | ⟨a :: as, h⟩ => some (a, ⟨as, by simp at h; omega⟩)

@[simp] theorem items_empty : (empty : Channel capacity α).items = [] := rfl

theorem trySend_items {c c' : Channel capacity α} {a : α} (h : c.trySend a = some c') : c'.items = c.items ++ [a] := by
  unfold trySend at h
  split at h
  · cases h
    rfl
  · cases h

theorem recv_items {c c' : Channel capacity α} {a : α} (h : c.recv = some (a, c')) : c.items = a :: c'.items := by
  obtain ⟨items, hitems⟩ := c
  cases items with
  | nil => cases h
  | cons b bs =>
    cases h
    rfl

end Channel

/-! ## Sockets -/

/-- A zstd or LZ4 compressor or decompressor. -/
inductive Compressor where
  | created
  | initialized (dict : Option Bytes)
  | movedFrom
  deriving DecidableEq

/-- The fields of a `BaseTransport` that a reconnect hands over to the next one. -/
structure SocketTransport where
  connectionId : UInt64 := 0
  messageSizeLimit : Nat := sizeMax
  zstdCompressor : Compressor := .created
  zstdDecompressor : Compressor := .created
  lz4Compressor : Compressor := .created
  lz4Decompressor : Compressor := .created
  deriving DecidableEq

structure Socket where
  transport : SocketTransport
  remoteAddress : SocketAddress
  usedQdb : Option QunetDatabase := none
  qdbFolder : Option Text := none
  deriving DecidableEq

structure OutgoingMessage where
  message : QunetMessage
  reliable : Bool := false
  uncompressed : Bool := false
  tag : Text := []
  deriving DecidableEq

structure TransportOptions where
  address : SocketAddress
  type : ConnectionType
  /-- in nanoseconds, as all durations here -/
  timeout : Nat
  hostname : Text
  path : Text
  reconnecting : Bool
  deriving DecidableEq

/-! ## The connection -/

inductive ConnectionState where
  | disconnected | dnsResolving | pinging | connecting | connected | closing | reconnecting
  deriving DecidableEq

structure ConnectionSettings where
  srvPrefix : Text := ['_', 'q', 'u', 'n', 'e', 't']
  preferredConnType : ConnectionType := .tcp
  preferIpv6 : Bool := true
  ipv4Enabled : Bool := true
  ipv6Enabled : Bool := true
  connTimeout : Nat := 5000000000
  qdbFolder : Option Text := none
  deriving DecidableEq

structure ConnectionData where
  address : Option SocketAddress := none
  connType : ConnectionType := .unknown
  reconnectAttempt : UInt16 := 0
  tryStatelessReconnect : Bool := false
  deriving DecidableEq

/-- A public function between its two steps. -/
inductive Call where
  | connect (destination : Text)
  | sendMsgToThread (m : OutgoingMessage)
  | disconnect
  deriving DecidableEq

/-- What happens to a connection, as far as it can be told from outside or matters later. -/
inductive Event where
  /-- `connect` returned `Ok`. -/
  | connectOk (destination : Text)
  /-- `sendMsgToThread` returned true. -/
  | accepted (m : OutgoingMessage)
  | disconnectReturned
  /-- The worker took a request. -/
  | dequeued (destination : Text)
  | threadConnect (destination : Text)
  /-- The worker is done with the request. -/
  | processed
  | exchange (prev state : ConnectionState) (socket : Option Socket)
  /-- The state callback; a callback that is not set does nothing. -/
  | callback (state : ConnectionState)
  /-- `m_disconnectReq.load`. -/
  | loaded (disconnectRequested : Bool)
  /-- A `select` of a connected or reconnecting worker has ended. -/
  | selected
  /-- a question to the resolver -/
  | query (name : Text)
  | pinged (address : SocketAddress)
  | establish (address : SocketAddress) (type : ConnectionType)
  | options (opts : TransportOptions)
  /-- The message that starts a handshake or presents a connection id. -/
  | handshake (m : QunetMessage)
  /-- The wait before the first attempt is over. -/
  | debounced
  | tryReconnect (stateless : Bool) (socket : Option Socket)
  | reconnectFailed (stateless : Bool) (e : ConnectionError)
  | stateReset
  /-- `m_msgChan.recv`. -/
  | received (m : OutgoingMessage)
  /-- `m_socket->sendMessage` of a message from the channel. -/
  | handed (m : OutgoingMessage)
  | drained
  | dataCallback (data : Bytes)

structure Connection where
  connState : ConnectionState := .disconnected
  connectChan : Channel 2 Text := .empty
  msgChan : Channel 512 OutgoingMessage := .empty
  connectHostname : Text := []
  connectPath : Text := []
  settings : ConnectionSettings := {}
  data : ConnectionData := {}
  lastError : ConnectionError := .other .success
  socket : Option Socket := none
  /-- a permit of `notifyOne` -/
  taskWakeNotify : Bool := false
  /-- the waiter of the worker, and whether `notifyAll` has found it -/
  disconnectNotify : Option Bool := none
  disconnectReq : Bool := false
  /-- the public functions that run now -/
  calls : List Call := []
  /-- newest first -/
  history : List Event := []

namespace Connection

def log (e : Event) (c : Connection) : Connection := { c with history := e :: c.history }

/-- `m_connState.exchange`. -/
def exchange (state : ConnectionState) (c : Connection) : Connection :=
  { c with connState := state }.log (.exchange c.connState state c.socket)

/-- What `setState` cleans up when connected. -/
def resetAttempts (c : Connection) : Connection :=
  { c with data := { c.data with reconnectAttempt := 0, tryStatelessReconnect := false } }

end Connection

/-! ## The worker's tasks -/

structure SupportedProtocol where
  protocolId : UInt8
  port : UInt16
  deriving DecidableEq

structure PingResult where
  responseTime : Nat
  protocols : List SupportedProtocol
  timedOut : Bool := false
  errored : Bool := false
  deriving DecidableEq

/-- What the worker is told: how an operation outside of this class ends, what the clock says, which of several futures
is ready. -/
inductive Answer where
  /-- not ready yet -/
  | pending
  /-- the disconnect notification is taken -/
  | disconnect
  | ready
  | flag (b : Bool)
  | result (r : Except TransportError Unit)
  | elapsed (ns : Nat)
  /-- the first endpoint of an SRV record -/
  | srv (endpoint : Option (Text × UInt16))
  | records (addresses : Option (List IpAddress))
  | cached (r : Option PingResult)
  | ping (i : Nat) (r : PingResult)
  | order (indices : List Nat)
  | qdb (db : Option QunetDatabase)
  | decoded (r : Except TransportError QunetDatabase)
  /-- the answer of the server, unless the time is up -/
  | handshake (r : Option (Except TransportError QunetMessage))
  | message
  | expiry
  | incoming (r : Except TransportError QunetMessage)
  | woken

namespace Answer

def ready? : Answer → Option Unit
  | ready => some ()
  | _ => none

def flag? : Answer → Option Bool
  | flag b => some b
  | _ => none

def result? : Answer → Option (Except TransportError Unit)
  | result r => some r
  | _ => none

def elapsed? : Answer → Option Nat
  | elapsed ns => some ns
  | _ => none

end Answer

/-- Undefined behaviour, and failed assertions. -/
inductive Abort where
  /-- the URL parser reads outside of its text -/
  | urlIndex
  /-- `ARC_ASSERT(!addrs.empty())` in `threadFinalConnect` -/
  | noCandidates
  /-- `createSocket` closes a transport that it has moved into the socket -/
  | movedTransport
  /-- `*m_socket` of an empty optional -/
  | emptySocket
  /-- the assertion in `threadTryReconnect` -/
  | noStoredAddress
  deriving DecidableEq

abbrev Worker := Task Connection Answer Abort

abbrev ConnectionResult (α : Type) := Except ConnectionError α

def note (e : Event) : Worker Unit := .act (·.log e)

def setState (state : ConnectionState) : Worker Unit := do
  let prev ← .update fun c => (c.connState, c.exchange state)
  if prev ≠ state then
    note (.callback state)
    .whenever (state = .connected) (.act Connection.resetAttempts)

def resetConnectionState : Worker Unit := do
  .act fun c => { c with data := {} }
  .act fun c => { c with disconnectReq := false }
  .act fun c => { c with socket := none }

def setLastError (e : ConnectionError) : Worker Unit := .act fun c => { c with lastError := e }

/-- `m_wts.msgChan.drain()`. -/
def drainMessages : Worker Unit := .act fun c => { c with msgChan := .empty }.log .drained

def onFatalError (e : ConnectionError) : Worker Unit := do
  setLastError e
  let state ← .read (·.connState)
  let shouldReconnect ← .ask Answer.flag?
  if state = .connected ∧ shouldReconnect then
    drainMessages
    setState .reconnecting
  else
    resetConnectionState
    setState .disconnected

def onConnectionError (e : ConnectionError) : Worker Unit :=
  if isFatalError e then onFatalError e else setLastError e

def threadCancelConnection : Worker Unit := do
  resetConnectionState
  setState .disconnected

/-- `*m_socket`. -/
def derefSocket : Worker Socket := do
  match ← .read (·.socket) with
  | some socket => return socket
  | none => .abort .emptySocket

end Qunet
