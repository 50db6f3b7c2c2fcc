import Qunet.Connection.State

/-!
# Connecting and reconnecting a socket (`Socket.cpp`)

* `createSocket` : a transport, and the time that is left;
* `onHandshakeSuccess`, `onReconnectSuccess` : what the new socket takes from the answer, and from the previous socket;
* `Socket.connect`, `Socket.reconnect` : a transport, a handshake, and what becomes of the answer.
-/

namespace Qunet
open Lib

def protocolVersion : ProtocolVersion := ⟨1, 2⟩

/-- Whole milliseconds of a duration. -/
def millis (ns : Nat) : Nat := ns / 1000000

namespace Answer

def qdb? : Answer → Option (Option QunetDatabase)
  | qdb db => some db
  | _ => none

def decoded? : Answer → Option (Except TransportError QunetDatabase)
  | decoded r => some r
  | _ => none

def handshake? : Answer → Option (Option (Except TransportError QunetMessage))
  | handshake r => some r
  | _ => none

end Answer

/-- `initCompressors`: LZ4 does not need it. -/
def SocketTransport.initCompressors (t : SocketTransport) (db : Option QunetDatabase) : SocketTransport :=
  { t with zstdCompressor := .initialized (db.bind (·.zstdDict))
           zstdDecompressor := .initialized (db.bind (·.zstdDict)) }

/-- A transport whose compressors were moved to another one. -/
def SocketTransport.movedFrom (t : SocketTransport) : SocketTransport :=
  { t with zstdCompressor := .movedFrom, zstdDecompressor := .movedFrom, lz4Compressor := .movedFrom
           lz4Decompressor := .movedFrom }

namespace Socket

/-- A socket, and how much time is left for the handshake. -/
def createSocket (options : TransportOptions) : Worker (Except TransportError (Socket × Nat)) := do
  match ← .await Answer.result? with
  | .error e => return .error e
  | .ok () =>
    let elapsed ← .ask Answer.elapsed?
    if options.timeout < elapsed then
      .await Answer.ready?
      return .error (.custom .connectionTimedOut)
    let elapsed ← .ask Answer.elapsed?
    let handshakeTimeout := options.timeout - elapsed
    -- if no time is left, `transport->close()` is called on what was moved into the socket
    .assert (millis handshakeTimeout ≠ 0) .movedTransport
    return .ok ({ transport := {}, remoteAddress := options.address }, handshakeTimeout)

def onHandshakeSuccess (socket : Socket) (m : HandshakeFinishMessage) : Worker (Except TransportError Socket) := do
  let transport := { socket.transport with connectionId := m.connectionId }
  match m.qdbData with
  | some _ =>
    match ← .ask Answer.decoded? with
    | .error e => return .error e
    | .ok db =>
      match ← .ask Answer.result? with
      | .error e => return .error e
      | .ok () =>
        -- save the qdb
        .whenever socket.qdbFolder.isSome (.await Answer.ready?)
        return .ok { socket with transport := transport.initCompressors (some db) }
  | none =>
    match ← .ask Answer.result? with
    | .error e => return .error e
    | .ok () => return .ok { socket with transport := transport.initCompressors socket.usedQdb, usedQdb := none }

/-- The database of earlier connections. -/
def findQdb (socket : Socket) (qdbFolder : Option Text) : Worker Socket := do
  match qdbFolder with
  | none => return socket
  | some folder => return { socket with usedQdb := ← .await Answer.qdb?, qdbFolder := some folder }

def connect (options : TransportOptions) (qdbFolder : Option Text) : Worker (Except TransportError Socket) := do
  match ← createSocket options with
  | .error e => return .error e
  | .ok (socket, _) =>
    let socket ← findQdb socket qdbFolder
    let qdbHash := (socket.usedQdb.map (·.hash)).getD (Vector.replicate 16 0)
    note (.handshake (.handshakeStart ⟨protocolVersion, UInt16.ofNat udpSafeMtu, qdbHash⟩))
    match ← .await Answer.handshake? with
    | none => return .error (.custom .handshakeTimedOut)
    | some (.error e) => return .error e
    | some (.ok (.handshakeFinish m)) => onHandshakeSuccess socket m
    | some (.ok (.handshakeFailure m)) => return .error (.handshakeFailure m.message)
    | some (.ok _) => return .error (.custom .unexpectedMessage)

/-- `onReconnectSuccess`: the compressors are moved out of `*m_socket`. -/
def onReconnectSuccess (socket : Socket) : Worker Socket := do
  let older ← .update fun c =>
    (c.socket, { c with socket := c.socket.map fun s => { s with transport := s.transport.movedFrom } })
  match older with
  | some older => return { socket with transport := older.transport }
  | none => .abort .emptySocket

/-- `prev` is a reference to `*m_socket`. -/
def reconnect (options : TransportOptions) : Worker (Except TransportError Socket) := do
  match ← createSocket options with
  | .error e => return .error e
  | .ok (socket, _) =>
    let prev ← derefSocket
    note (.handshake (.clientReconnect ⟨prev.transport.connectionId⟩))
    match ← .await Answer.handshake? with
    | none => return .error (.custom .handshakeTimedOut)
    | some (.error e) => return .error e
    | some (.ok .reconnectSuccess) => return .ok (← onReconnectSuccess socket)
    | some (.ok .reconnectFailure) => return .error (.custom .reconnectFailed)
    | some (.ok _) => return .error (.custom .unexpectedMessage)

end Socket

end Qunet
