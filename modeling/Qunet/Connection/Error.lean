import Qunet.Transport.Error

/-!
# Connection errors (`Connection.hpp`, `Connection.cpp`)

* addresses and transport types;
* `ConnectionError`, and `isFatalError`, by which the worker decides whether a connection is lost;
* the texts of the error codes in messages (`protocol/errors.cpp`).
-/

namespace Qunet

inductive IpAddress where
  | v4 (bits : UInt32)
  | v6 (octets : Vector UInt8 16)
  deriving DecidableEq

structure SocketAddress where
  ip : IpAddress
  port : UInt16
  deriving DecidableEq

def SocketAddress.isV6 (a : SocketAddress) : Bool :=
  match a.ip with
  | .v4 _ => false
  | .v6 _ => true

inductive ConnectionType where
  | unknown | tcp | udp | quic | webSocket | webSocketTls
  deriving DecidableEq

/-- `ConnectionError::Code`. -/
inductive ConnectionCode where
  | success | invalidProtocol | invalidPort | inProgress | notConnected | alreadyConnected | alreadyClosing
  | ipProtocolDisabled | connectionTypeDisabled | noConnectionTypeFound | noAddresses | internalError | tlsInitFailed
  | dnsResolutionFailed | domainNotFound
  deriving DecidableEq

structure ServerClosedError where
  reason : String
  deriving DecidableEq

/-- The variant `ConnectionError::m_err`. -/
inductive ConnectionError where
  | other (code : ConnectionCode)
  | transport (e : TransportError)
  | allAddressesFailed (addresses : List (SocketAddress × ConnectionType × ConnectionError))
  | serverClosed (e : ServerClosedError)

/-- The code of `qsox::Error::Success`. -/
def qsoxSuccess : Int := 0

/-- The transport errors that `isFatalError` names. -/
def fatalCodes : List CustomCode := [.connectionTimedOut, .tooUnreliable, .timedOut, .closed, .cancelled]

def isFatalTransportError : TransportError → Bool
  | .socket code => code != qsoxSuccess
  | .custom code => fatalCodes.contains code
  | _ => false

def isFatalError : ConnectionError → Bool
  | .serverClosed _ => true
  | .transport e => isFatalTransportError e
  | .other code => code != .success
  | .allAddressesFailed _ => false

/-! ## Texts of error codes -/

def messageForConnectionError (code : UInt32) : String :=
  match code.toNat with
  | 1 => "Fragmentation not allowed"
  | 2 => "Requested QDB chunk is too long"
  | 3 => "Requested QDB chunk is invalid (offset/length are out of bounds)"
  | 4 => "Client requested a QDB chunk but a QDB isn't available"
  | 5 => "Protocol violation: client send a malformed zero-length message"
  | 6 => "Protocol violation: client sent a stream message that exceeds the maximum allowed length"
  | 7 => "Internal server error"
  | 8 => "Server is shutting down"
  | 9 => "Rate limit exceeded, client sent too many messages in a short period"
  | _ => ""

def messageForHandshakeError (code : UInt32) : String :=
  match code.toNat with
  | 1 => "Client qunet version is too old"
  | 2 => "Client qunet version is too new"
  | 3 => "Reconnect failed, unknown connection ID"
  | 4 => "Duplicate connection detected from the same address"
  | _ => ""

/-- A `std::string` of these bytes. -/
def textOf (bytes : Lib.Bytes) : String := String.ofList (bytes.map fun b => Char.ofNat b.toNat)

/-- `message()` of a failure with the texts `table`. -/
def failureMessage (table : UInt32 → String) (unknown : String) (code : UInt32) (text : Lib.Bytes) : String :=
  if code = 0 then textOf text
  else if table code = "" then unknown ++ toString code
  else table code

def HandshakeFailureMessage.message (m : HandshakeFailureMessage) : String :=
  failureMessage messageForHandshakeError "Unknown handshake error code: " m.errorCode m.errorMessage

def ServerCloseMessage.message (m : ServerCloseMessage) : String :=
  failureMessage messageForConnectionError "Unknown server close error code: " m.errorCode m.errorMessage

end Qunet
