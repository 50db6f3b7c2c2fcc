import Qunet.Message.Types

/-!
# Encoding and decoding messages (`QunetMessage.cpp`, `messages.hpp`)

* `Dbuf` : what the code relies on of the dbuf readers and writers;
* the `decode` of each message and `decodeWithMeta`;
* `lengthForNonDataMessage`, `decodeMeta`, and `QunetUdpMessageIter`, which cuts a datagram into messages;
* `encodeControlHeader`, and `encodeDataHeader`, the bytes in front of a data message's payload.
-/

namespace Qunet
open Lib

inductive MessageDecodeError where
  | invalidMessageType | invalidData | invalidConnCtlCode | notEnoughData
  deriving DecidableEq

/-- What the code uses of dbuf: a code for each fixed-width integer, and the meaning of a byte read as a bool. -/
class Dbuf where
  u16 : FixedCode UInt16 2
  u32 : FixedCode UInt32 4
  u64 : FixedCode UInt64 8
  bool : UInt8 → Option Bool

/-- The byte order of the datagrams in the repository's tests. -/
@[reducible] def Dbuf.little : Dbuf where
  u16 := .little16
  u32 := .little32
  u64 := .little64
  bool b := some (b != 0)

variable [Dbuf]

/-! ## Readers

Every dbuf error reaches the caller through `MAP_UNWRAP`, which turns it into `InvalidData`. -/

abbrev DecodeReader (α : Type) := Reader MessageDecodeError α

def readBytes (n : Nat) : DecodeReader Bytes := Reader.take .invalidData n
def skip (n : Nat) : DecodeReader Unit := (fun _ => ()) <$> readBytes n
def readToEnd : DecodeReader Bytes := Reader.toEnd
def remainingSize : DecodeReader Nat := fun bs => .ok (bs.length, bs)
def readU16 : DecodeReader UInt16 := Dbuf.u16.reader .invalidData
def readU32 : DecodeReader UInt32 := Dbuf.u32.reader .invalidData
def readU64 : DecodeReader UInt64 := Dbuf.u64.reader .invalidData

def readU8 : DecodeReader UInt8
  | [] => .error .invalidData
  | b :: rest => .ok (b, rest)

def readBool : DecodeReader Bool := do
  match Dbuf.bool (← readU8) with
  | none => throw .invalidData
  | some b => pure b

def readString : DecodeReader Bytes := do
  readBytes (← readU16).toNat

/-- Read a part that is present only under a flag. -/
def readOptional {α : Type} (present : Bool) (r : DecodeReader α) : DecodeReader (Option α) :=
  if present then some <$> r else pure none

/-! ## `decode` of the messages -/

def KeepaliveMessage.decode : DecodeReader KeepaliveMessage := do
  let timestamp ← readU64
  let _flags ← readU8
  pure { timestamp }

def KeepaliveResponseMessage.decode : DecodeReader KeepaliveResponseMessage := do
  let timestamp ← readU64
  let dataSize ← readU16
  let data ← (if dataSize > 0 then readBytes dataSize.toNat else pure [])
  pure { timestamp, data }

def QdbData.decode : DecodeReader QdbData := do
  let uncompressedSize ← readU32
  let compressedSize ← readU32
  let chunkOffset ← readU32
  let chunkSize ← readU32
  let chunkData ← (if chunkSize > 0 then readBytes chunkSize.toNat else pure [])
  pure { uncompressedSize, compressedSize, chunkOffset, chunkSize, chunkData }

def HandshakeFinishMessage.decode : DecodeReader HandshakeFinishMessage := do
  let connectionId ← readU64
  let qdbData ← readOptional (← readBool) QdbData.decode
  pure { connectionId, qdbData }

/-- The error code and, for code 0, the message text: the body of a handshake failure and of a server close. -/
def decodeErrorBody : DecodeReader (UInt32 × Bytes) := do
  let errorCode ← readU32
  let errorMessage ← (if errorCode = 0 then readString else pure [])
  pure (errorCode, errorMessage)

def HandshakeFailureMessage.decode : DecodeReader HandshakeFailureMessage :=
  (fun p => ⟨p.1, p.2⟩) <$> decodeErrorBody

def ServerCloseMessage.decode : DecodeReader ServerCloseMessage :=
  (fun p => ⟨p.1, p.2⟩) <$> decodeErrorBody

def ConnectionErrorMessage.decode : DecodeReader ConnectionErrorMessage := do
  pure { errorCode := ← readU32 }

def ConnectionControlMessage.decode : DecodeReader ConnectionControlMessage := do
  -- the source keeps the low byte of the code only: `uint8_t type = readU16()`
  let type := (← readU16).toUInt8.toUInt16
  if type = qunetConnctlSetMtu then
    return .setMtu (← readU16)
  else if type = qunetConnctlPmtudProbe then
    return .pmtudProbe (← readBytes (← readU16).toNat)
  else
    throw .invalidData

/-- Run a message's `decode` on the payload. -/
def decodeAs {α : Type} (r : DecodeReader α) (wrap : α → QunetMessage) (data : Bytes) :
    Except MessageDecodeError QunetMessage :=
  match r data with
  | .error e => .error e
  | .ok (m, _) => .ok (wrap m)

def decodeWithMeta (m : QunetMessageMeta) : Except MessageDecodeError QunetMessage :=
  if m.type &&& msgDataMask ≠ 0 then .error .invalidMessageType
  else if m.type = msgKeepalive then decodeAs KeepaliveMessage.decode .keepalive m.data
  else if m.type = msgKeepaliveResponse then decodeAs KeepaliveResponseMessage.decode .keepaliveResponse m.data
  else if m.type = msgHandshakeFinish then decodeAs HandshakeFinishMessage.decode .handshakeFinish m.data
  else if m.type = msgHandshakeFailure then decodeAs HandshakeFailureMessage.decode .handshakeFailure m.data
  else if m.type = msgServerClose then decodeAs ServerCloseMessage.decode .serverClose m.data
  else if m.type = msgConnectionError then decodeAs ConnectionErrorMessage.decode .connectionError m.data
  else if m.type = msgReconnectSuccess then .ok .reconnectSuccess
  else if m.type = msgReconnectFailure then .ok .reconnectFailure
  else if m.type = msgConnectionControl then decodeAs ConnectionControlMessage.decode .connectionControl m.data
  else if m.type = msgPadding then .ok .padding
  else .error .invalidMessageType

/-! ## The length of a control message -/

/-- `4 + len` and `4 + 4 + len` are 32-bit sums in the source, as `len` is a `uint32_t`. -/
def lengthForNonDataMessage (headerByte : UInt8) : DecodeReader Nat :=
  if headerByte = msgPing then pure 5
  else if headerByte = msgPong then do
    skip 4
    let protocols := (← readU8).toNat
    skip (3 * protocols)
    let dataLen := (← readU16).toNat
    skip dataLen
    pure (4 + (1 + 3 * protocols) + (2 + dataLen))
  else if headerByte = msgKeepalive then pure 9
  else if headerByte = msgKeepaliveResponse then do
    skip 8
    let dataLen := (← readU16).toNat
    skip dataLen
    pure (8 + (2 + dataLen))
  else if headerByte = msgHandshakeStart then pure (2 + 2 + 2 + 16)
  else if headerByte = msgHandshakeFinish then do
    skip 8
    if ← readBool then
      skip 12
      let len ← readU32
      skip len.toNat
      pure (8 + 1 + 12 + (4 + len).toNat)
    else pure (8 + 1)
  else if headerByte = msgHandshakeFailure ∨ headerByte = msgServerClose then do
    let code ← readU32
    if code = 0 then
      let len := (← readU16).toNat
      skip len
      pure (4 + (2 + len))
    else pure 4
  else if headerByte = msgClientClose then pure 1
  else if headerByte = msgClientReconnect then pure 8
  else if headerByte = msgConnectionError then pure 4
  else if headerByte = msgQdbChunkRequest then pure 8
  else if headerByte = msgQdbChunkResponse then do
    skip 4
    let len ← readU32
    skip len.toNat
    pure (4 + 4 + len).toNat
  else if headerByte = msgReconnectSuccess then pure 0
  else if headerByte = msgReconnectFailure then pure 0
  else if headerByte = msgConnectionControl then do
    let code ← readU16
    if code = qunetConnctlSetMtu then
      skip 2
      pure (2 + 2)
    else if code = qunetConnctlPmtudProbe then
      let len := (← readU16).toNat
      skip len
      pure (2 + (2 + len))
    else throw .invalidConnCtlCode
  else if headerByte = msgPadding then remainingSize
  else throw .invalidMessageType

/-! ## `decodeMeta` -/

/-- The indices of `acks` that `decodeMeta` fills: `i < std::min<size_t>(relHdr.ackCount, 8)`. -/
def decodeAckIndices (ackCount : Nat) : List Nat := List.range (min ackCount 8)

/-- `relHdr.acks[i] = reader.readU16()` for the given indices. -/
def readAcks : List Nat → Vector UInt16 8 → DecodeReader (Vector UInt16 8)
  | [], acks => pure acks
  | i :: is, acks => do
    let a ← readU16
    readAcks is (acks.setIfInBounds i a)

/-- The source leaves the entries past `ackCount` uninitialised; they are never read. -/
def readReliabilityHeader : DecodeReader ReliabilityHeader := do
  let messageId ← readU16
  let ackCount := (← readU16).toNat
  let acks ← readAcks (decodeAckIndices ackCount) (Vector.replicate 8 0)
  pure { messageId, ackCount, acks }

def readFragmentationHeader : DecodeReader FragmentationHeader := do
  let messageId ← readU16
  let index ← readU16
  pure { messageId, fragmentIndex := index &&& 0x7FFF, lastFragment := index &&& 0x8000 != 0 }

def readCompressionHeader (type : CompressionType) : DecodeReader (Option DecodedCompression) :=
  if h : type ≠ .none then do
    pure (some { type, uncompressedSize := ← readU32, type_ne_none := h })
  else pure none

/-- The headers and the rest of a data message, and its boundary if the header byte announces one. -/
def readDataMeta (msgType : UInt8) (start : Nat) : DecodeReader (QunetMessageMeta × Option UInt16) := do
  let compressionHeader ← readCompressionHeader (.ofBits (msgType &&& 0b11))
  let reliabilityHeader ← readOptional (msgType &&& msgDataReliabilityMask != 0) readReliabilityHeader
  let fragmentationHeader ← readOptional (msgType &&& msgDataFragmentationMask != 0) readFragmentationHeader
  let boundary ← readOptional (msgType &&& msgDataBoundaryMask != 0) readU16
  let data ← readToEnd
  let dataOffset := start + (if compressionHeader.isSome then 4 else 0)
    + reliabilityHeader.elim 0 (fun h => 4 + h.ackCount * 2)
    + (if fragmentationHeader.isSome then 4 else 0) + (if boundary.isSome then 2 else 0)
  pure ({ type := msgData, compressionHeader, reliabilityHeader, fragmentationHeader, data, dataOffset }, boundary)

def decodeDataMeta (msgType : UInt8) (start : Nat) (body : Bytes) :
    Except MessageDecodeError QunetMessageMeta :=
  match readDataMeta msgType start body with
  | .error e => .error e
  | .ok ((m, none), _) => .ok m
  | .ok ((m, some boundary), _) =>
    if m.data.length < boundary.toNat then .error .invalidData
    else .ok { m with data := m.data.take boundary.toNat }

def decodeControlMeta (msgType : UInt8) (start : Nat) (body : Bytes) :
    Except MessageDecodeError QunetMessageMeta :=
  match lengthForNonDataMessage msgType body with
  | .error e => .error e
  | .ok (dataSize, _) =>
    if body.length < dataSize then .error .notEnoughData
    else .ok { type := msgType, compressionHeader := none, reliabilityHeader := none, fragmentationHeader := none,
               data := body.take dataSize, dataOffset := start }

/-- The header byte and, on the server's side of UDP, the connection id. -/
def dataStart (udpConnId : Bool) : Nat := if udpConnId then 9 else 1

/-- The data is `msgType :: rest`: the assertion `!data.empty()` is in the type. -/
def decodeMeta (msgType : UInt8) (rest : Bytes) (udpConnId : Bool) : Except MessageDecodeError QunetMessageMeta :=
  let start := dataStart udpConnId
  let body := (msgType :: rest).drop start
  if (msgType :: rest).length < start then .error .notEnoughData
  else if msgType &&& msgDataMask = 0 then decodeControlMeta msgType start body
  else decodeDataMeta msgType start body

/-! ## Cutting a datagram into messages -/

structure QunetUdpMessageIter where
  data : Bytes
  server : Bool
  pos : Nat := 0
  eof : Bool := false

def QunetUdpMessageIter.next (it : QunetUdpMessageIter) :
    Option (Except MessageDecodeError QunetMessageMeta) × QunetUdpMessageIter :=
  if it.eof then (none, it)
  else match it.data.drop it.pos with
    | [] => (none, it) -- `m_pos >= m_data.size()`
    | msgType :: rest =>
      match decodeMeta msgType rest (it.pos = 0 && it.server) with
      | .error e => (some (.error e), it)
      | .ok m => (some (.ok m), { it with pos := it.pos + (m.dataOffset + m.data.length) })

/-- What a loop over the iterator sees when it stops at the first error, in at most `fuel` rounds. -/
def QunetUdpMessageIter.itemsFrom : Nat → QunetUdpMessageIter → List (Except MessageDecodeError QunetMessageMeta)
  | 0, _ => []
  | fuel + 1, it =>
    match it.next with
    | (none, _) => []
    | (some (.error e), _) => [.error e]
    | (some (.ok m), it') => .ok m :: itemsFrom fuel it'

/-- The messages of a datagram up to its first malformed one. Every message moves the iterator by at least one byte
(`next_advances`), so its length bounds the rounds. -/
def datagramItems (data : Bytes) (server : Bool) : List (Except MessageDecodeError QunetMessageMeta) :=
  QunetUdpMessageIter.itemsFrom (data.length + 1) { data, server }

/-! ## Encoding a control message -/

def writeConnectionId (connectionId : UInt64) : Bytes :=
  if connectionId ≠ 0 then Dbuf.u64.write connectionId else []

def encodeControlHeader (headerByte : UInt8) (connectionId : UInt64) : Bytes :=
  headerByte :: writeConnectionId connectionId

def HandshakeStartMessage.encode (m : HandshakeStartMessage) : Bytes :=
  Dbuf.u16.write m.protocolVersion.major ++ Dbuf.u16.write m.protocolVersion.minor ++ Dbuf.u16.write m.fragLimit
    ++ m.qdbHash.toList

/-! ## The header of a data message -/

/-- The header byte: the compression bits and the reliability bit, when the headers are not omitted. -/
def dataHeaderByte (msg : DataMessage) (omitHeaders : Bool) : UInt8 :=
  if omitHeaders then msgData
  else
    let hdr := match msg.compHeader with
      | some c => msgData ||| c.type.bits
      | none => msgData
    if msg.relHeader.isSome then hdr ||| msgDataReliabilityMask else hdr

def writeReliabilityHeader (h : ReliabilityHeader) : Bytes :=
  Dbuf.u16.write h.messageId ++ Dbuf.u16.write (UInt16.ofNat h.ackCount) ++ h.ackList.flatMap Dbuf.u16.write

/-- The header fields in the order in which the encoder writes them. -/
def dataHeaderFields (msg : DataMessage) (connectionId : UInt64) (omitHeaders : Bool) : Bytes :=
  if omitHeaders then writeConnectionId connectionId
  else
    msg.compHeader.elim [] (fun c => Dbuf.u32.write c.uncompressedSize) ++ writeConnectionId connectionId
      ++ msg.relHeader.elim [] writeReliabilityHeader

def encodeDataHeader (msg : DataMessage) (connectionId : UInt64) (omitHeaders : Bool) : Bytes :=
  dataHeaderByte msg omitHeaders :: dataHeaderFields msg connectionId omitHeaders

end Qunet
