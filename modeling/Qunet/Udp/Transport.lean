import Qunet.Udp.AckSafety
import Qunet.Udp.FragmentStore
import Qunet.Util.StatTracker

/-!
# Receiving on a UDP transport (`transport/UdpTransport.cpp`, `BaseTransport.cpp`)

* `World` : what one call takes from outside: the clock, the decompression libraries, unspecified orders and memory;
* `UdpTransport` : the state of a transport, with a ghost record `Trace` that no function reads;
* `decodePreFinalDataMessage`, `processOne`, `receiveBatch`, `receiveMessageInner`, `receiveMessage`.
-/

namespace Qunet
open Lib

/-- What a call takes from outside. `zstd` is `ZSTD_decompressDCtx`, or `ZSTD_decompress_usingDDict` when its first
argument is set, and `lz4` is `LZ4_decompress_safe`: the decompressed bytes, or nothing when the library reports an
error. `past` is the memory behind an array of acknowledgements. -/
structure World where
  now : Nat
  order : Traversal
  past : Nat → UInt16
  zstd : Bool → Bytes → Nat → Option Bytes
  lz4 : Bytes → Nat → Option Bytes

/-- A message on its way to the caller. The `origin` is a ghost: the meta it was decoded from. -/
structure Received where
  message : QunetMessage
  origin : QunetMessageMeta
  deriving DecidableEq

/-- A ghost record: the messages decoded so far, the reliable messages that the store handed on, and the headers whose
acknowledgements were processed. -/
structure Trace where
  decoded : List Received := []
  accepted : List ReliableMeta := []
  processed : List ReliabilityHeader := []
  deriving DecidableEq

/-- The reliable message that a result of `handleIncoming` hands on. -/
def acceptedOf (m : ReliableMeta) : Except TransportError Bool → List ReliableMeta
  | .ok true => if messageIdOf m = 0 then [] else [m]
  | _ => []

/-- A message went through `handleIncoming`. -/
def Trace.noteIncoming (tr : Trace) (m : ReliableMeta) (r : Except TransportError Bool) : Trace :=
  { tr with processed := tr.processed ++ [m.header], accepted := tr.accepted ++ acceptedOf m r }

structure UdpTransport where
  relStore : ReliableStore := {}
  fragStore : FragmentStore := {}
  mtu : Nat := udpSafeMtu
  connectionId : UInt64 := 0
  messageSizeLimit : Nat := sizeMax
  /-- The zstd decompressor has a context. -/
  zstdReady : Bool := false
  /-- The zstd decompressor has a dictionary. -/
  zstdDict : Bool := false
  tracker : StatTracker := {}
  unackedKeepalives : Nat := 0
  pendingMessages : List Received := []
  trace : Trace := {}

/-- What a `recv` on the socket returns. -/
inductive RecvResult where
  | error (e : TransportError)
  | datagram (bytes : Bytes)

/-- The coming results of `recv`, each with the world in which it is handled. -/
abbrev SocketInput := List (World × RecvResult)

namespace UdpTransport

/-! ## Data messages -/

def zstdDecompress (w : World) (t : UdpTransport) (src : Bytes) (dstSize : Nat) (noDict : Bool) :
    Except DecompressorError Bytes :=
  if !t.zstdReady then .error .notInitialized
  else match w.zstd (t.zstdDict && !noDict) src dstSize with
    | none => .error .decompressionFailed
    | some dst => if dstSize ≠ dst.length then .error .sizeMismatch else .ok dst

def lz4Decompress (w : World) (src : Bytes) (dstSize : Nat) : Except DecompressorError Bytes :=
  match w.lz4 src dstSize with
  | none => .error .decompressionFailed
  | some dst => if dst.length ≠ dstSize then .error .sizeMismatch else .ok dst

/-- The payload of a data message. The assertion that the type is known is in `DecodedCompression`. -/
def decompress (w : World) (t : UdpTransport) (m : QunetMessageMeta) : Except TransportError Bytes :=
  match m.compressionHeader with
  | none => .ok m.data
  | some h =>
    if h.uncompressedSize.toNat > t.messageSizeLimit then .error (.custom .messageTooLong)
    else
      let r := match h.type with
        | .lz4 => lz4Decompress w m.data h.uncompressedSize.toNat
        | type => zstdDecompress w t m.data h.uncompressedSize.toNat (type = CompressionType.zstdNoDict)
      r.mapError .decompressor

/-- The statistics of an incoming data message. -/
def countDownMessage (w : World) (m : QunetMessageMeta) (t : UdpTransport) : UdpTransport :=
  { t with tracker := match m.compressionHeader with
    | none => t.tracker.onDownMessage w.now m.data.length none m.reliabilityHeader
    | some h => t.tracker.onDownMessage w.now h.uncompressedSize.toNat (some m.data.length) m.reliabilityHeader }

/-- The result keeps none of the headers. -/
def decodePreFinalDataMessage (w : World) (t : UdpTransport) (m : QunetMessageMeta) :
    Except TransportError Received × UdpTransport :=
  ((fun data => ⟨.data { data }, m⟩) <$> decompress w t m, countDownMessage w m t)

/-- Ghost: a message was decoded. -/
def noteDecoded (r : Received) (t : UdpTransport) : UdpTransport :=
  { t with trace := { t.trace with decoded := t.trace.decoded ++ [r] } }

/-- Decode a data message, and record it. -/
def finishData (w : World) (t : UdpTransport) (m : QunetMessageMeta) :
    Except TransportError (Option Received) × UdpTransport :=
  match decodePreFinalDataMessage w t m with
  | (.error e, t) => (.error e, t)
  | (.ok r, t) => (.ok (some r), t.noteDecoded r)

/-! ## One message of a datagram -/

/-- The fragments: the reassembled message, or the message itself if it is no fragment. -/
def defragment (w : World) (t : UdpTransport) (m : QunetMessageMeta) :
    Except TransportError (Option QunetMessageMeta) × UdpTransport :=
  match HeaderMeta.of? QunetMessageMeta.fragmentationHeader m with
  | none => (.ok (some m), t)
  | some fm =>
    let r := t.fragStore.processFragment w.order w.now fm
    (r.1, { t with fragStore := r.2 })

/-- The reliable store's part: whether the message is to be handed on. -/
def acceptReliable (w : World) (t : UdpTransport) (m : QunetMessageMeta) : Except TransportError Bool × UdpTransport :=
  match HeaderMeta.of? QunetMessageMeta.reliabilityHeader m with
  | none => (.ok true, t)
  | some rm =>
    let r := t.relStore.handleIncoming w.past w.now rm
    (r.1, { t with relStore := r.2, trace := t.trace.noteIncoming rm r.1 })

def processData (w : World) (t : UdpTransport) (m : QunetMessageMeta) :
    Except TransportError (Option Received) × UdpTransport :=
  match defragment w t m with
  | (.error e, t) => (.error e, t)
  | (.ok none, t) => (.ok none, t)
  | (.ok (some m), t) =>
    match acceptReliable w t m with
    | (.error e, t) => (.error e, t)
    | (.ok false, t) => (.ok none, t)
    | (.ok true, t) => finishData w t m

section
variable [Dbuf]

def processControl (w : World) (t : UdpTransport) (m : QunetMessageMeta) :
    Except TransportError (Option Received) × UdpTransport :=
  let t := { t with tracker := t.tracker.onDownMessage w.now m.data.length none none }
  match decodeWithMeta m with
  | .error e => (.error (.decode e), t)
  | .ok msg =>
    let t := match msg with
      | .keepaliveResponse _ => { t with unackedKeepalives := 0 }
      | _ => t
    (.ok (some ⟨msg, m⟩), t.noteDecoded ⟨msg, m⟩)

def processOne (w : World) (t : UdpTransport) (m : QunetMessageMeta) :
    Except TransportError (Option Received) × UdpTransport :=
  if m.type ≠ msgData then processControl w t m else processData w t m

/-! ## Receiving -/

/-- `toReturn`, or the end of the queue of pending messages. -/
def handOn (toReturn : Option Received) (r : Received) (t : UdpTransport) : Option Received × UdpTransport :=
  match toReturn with
  | none => (some r, t)
  | some first => (some first, { t with pendingMessages := t.pendingMessages ++ [r] })

/-- One round of the loop over the messages of a datagram: the new `toReturn`, or the error that leaves the loop. -/
def receiveItem (w : World) (toReturn : Option Received) (t : UdpTransport)
    (item : Except MessageDecodeError QunetMessageMeta) :
    Except TransportError (Option Received) × UdpTransport :=
  match item with
  | .error e => (.error (.decode e), t)
  | .ok m =>
    if m.type = msgPadding then (.ok toReturn, t)
    else match processOne w t m with
      | (.error e, t) => (.error e, t)
      | (.ok none, t) => (.ok toReturn, t)
      | (.ok (some r), t) => (.ok (handOn toReturn r t).1, (handOn toReturn r t).2)

/-- The loop over the messages of a datagram. -/
def receiveBatch (w : World) : Option Received → UdpTransport → List (Except MessageDecodeError QunetMessageMeta) →
    Except TransportError (Option Received) × UdpTransport
  | toReturn, t, [] => (.ok toReturn, t)
  | toReturn, t, item :: rest =>
    match receiveItem w toReturn t item with
    | (.error e, t) => (.error e, t)
    | (.ok toReturn, t) => receiveBatch w toReturn t rest

/-- What the receive buffer holds of a datagram. -/
def receiveBuffer (bytes : Bytes) : Bytes := bytes.take udpMaxAllowedMtu

/-- The statistics of an incoming datagram. -/
def countDownPacket (w : World) (t : UdpTransport) (buffer : Bytes) : UdpTransport :=
  { t with tracker := t.tracker.onDownPacket w.now buffer.length }

/-- A datagram that has been read from the socket. -/
def receiveDatagram (w : World) (t : UdpTransport) (bytes : Bytes) :
    Except TransportError (Option Received) × UdpTransport :=
  let buffer := receiveBuffer bytes
  if buffer.length = 0 then (.error (.custom .zeroLengthMessage), t)
  else receiveBatch w none (countDownPacket w t buffer) (datagramItems buffer false)

/-- The messages that are returned before the socket is read. -/
def receiveQueued (w : World) (t : UdpTransport) : Option (Except TransportError (Option Received) × UdpTransport) :=
  match t.pendingMessages with
  | r :: rest => some (.ok (some r), { t with pendingMessages := rest })
  | [] =>
    match t.relStore.popDelayedMessage with
    | (some m, s) => some (finishData w { t with relStore := s } m.toQunetMessageMeta)
    | (none, _) => none

/-- The rest of the socket's input is returned as well; nothing is returned while the socket has no input left. -/
def receiveMessageInner (w : World) (t : UdpTransport) (sock : SocketInput) :
    Option (Except TransportError (Option Received) × UdpTransport × SocketInput) :=
  match receiveQueued w t with
  | some (r, t) => some (r, t, sock)
  | none =>
    match sock with
    | [] => none
    | (_, .error e) :: sock => some (.error e, t, sock)
    | (w, .datagram bytes) :: sock => some ((receiveDatagram w t bytes).1, (receiveDatagram w t bytes).2, sock)

/-- Call `receiveMessageInner` until it returns a message, at most `rounds` times. -/
def receiveMessageLoop (w : World) : Nat → UdpTransport → SocketInput →
    Option (Except TransportError Received × UdpTransport × SocketInput)
  | 0, _, _ => none
  | rounds + 1, t, sock =>
    match receiveMessageInner w t sock with
    | none => none
    | some (.error e, t, sock) => some (.error e, t, sock)
    | some (.ok (some r), t, sock) => some (.ok r, t, sock)
    | some (.ok none, t, sock) => receiveMessageLoop w rounds t sock

/-- A round that returns no message reads from the socket (`receiveMessageInner_none`), so its input bounds the
rounds. Nothing is returned while the call waits for input. -/
def receiveMessage (w : World) (t : UdpTransport) (sock : SocketInput) :
    Option (Except TransportError Received × UdpTransport × SocketInput) :=
  receiveMessageLoop w (sock.length + 1) t sock

end

end UdpTransport

end Qunet
