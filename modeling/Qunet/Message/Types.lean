import Qunet.Lib.Reader

/-!
# Messages and their headers

* the protocol constants (`protocol/constants.hpp`);
* the optional headers of a data message and the decoded `QunetMessageMeta` (`socket/message/meta.hpp`);
* the messages themselves (`socket/message/messages.hpp`) and `QunetMessage`, the variant over them.
-/

namespace Qunet
open Lib

/-! ## Constants -/

def msgPing : UInt8 := 1
def msgPong : UInt8 := 2
def msgKeepalive : UInt8 := 3
def msgKeepaliveResponse : UInt8 := 4
def msgHandshakeStart : UInt8 := 5
def msgHandshakeFinish : UInt8 := 6
def msgHandshakeFailure : UInt8 := 7
def msgClientClose : UInt8 := 8
def msgServerClose : UInt8 := 9
def msgClientReconnect : UInt8 := 10
def msgConnectionError : UInt8 := 11
def msgQdbChunkRequest : UInt8 := 12
def msgQdbChunkResponse : UInt8 := 13
def msgReconnectSuccess : UInt8 := 14
def msgReconnectFailure : UInt8 := 15
def msgConnectionControl : UInt8 := 16
def msgPadding : UInt8 := 127
def msgData : UInt8 := 0x80
def msgDataMask : UInt8 := msgData

def msgDataBoundaryMask : UInt8 := (1 : UInt8) <<< 3
def msgDataReliabilityMask : UInt8 := (1 : UInt8) <<< 4
def msgDataFragmentationMask : UInt8 := (1 : UInt8) <<< 5

/-- The most significant bit of a fragment index marks the last fragment. -/
def msgDataLastFragmentMask : UInt16 := 0x8000

def qunetConnctlSetMtu : UInt16 := 0x0001
def qunetConnctlPmtudProbe : UInt16 := 0x0040

def udpMaxAllowedMtu : Nat := 1400
def udpSafeMtu : Nat := 1200

/-- The largest value of the source's 64-bit `size_t`. -/
def sizeMax : Nat := 2 ^ 64 - 1

/-! ## Headers -/

inductive CompressionType where
  | none | zstd | zstdNoDict | lz4
  deriving DecidableEq

/-- The two compression bits of a data header byte. -/
def CompressionType.bits : CompressionType → UInt8
  | .none => 0
  | .zstd => 1
  | .zstdNoDict => 2
  | .lz4 => 3

def CompressionType.ofBits (b : UInt8) : CompressionType :=
  if b = 1 then .zstd else if b = 2 then .zstdNoDict else if b = 3 then .lz4 else .none

@[simp] theorem CompressionType.ofBits_bits (t : CompressionType) : ofBits t.bits = t := by
  cases t <;> decide

structure CompressionHeader where
  type : CompressionType
  uncompressedSize : UInt32
  deriving DecidableEq

/-- A header that was decoded: the decoder reads none unless the compression bits name an algorithm. -/
structure DecodedCompression extends CompressionHeader where
  type_ne_none : type ≠ .none
  deriving DecidableEq

structure ReliabilityHeader where
  messageId : UInt16
  ackCount : Nat
  acks : Vector UInt16 8
  deriving DecidableEq

/-- The acknowledged ids that lie inside the array: `acks[i]` for `i < ackCount && i < 8`. -/
def ReliabilityHeader.ackList (h : ReliabilityHeader) : List UInt16 := h.acks.toList.take h.ackCount

theorem ReliabilityHeader.ackList_length (h : ReliabilityHeader) : h.ackList.length = min h.ackCount 8 := by
  simp [ackList]

structure FragmentationHeader where
  messageId : UInt16
  fragmentIndex : UInt16
  lastFragment : Bool
  deriving DecidableEq

/-- A decoded message before its payload is looked at. -/
structure QunetMessageMeta where
  type : UInt8
  compressionHeader : Option DecodedCompression
  reliabilityHeader : Option ReliabilityHeader
  fragmentationHeader : Option FragmentationHeader
  data : Bytes
  dataOffset : Nat
  deriving DecidableEq

/-- A meta whose optional header `get` is present: what `QN_ASSERT(message.…Header.has_value())` asks for. -/
structure HeaderMeta {η : Type} (get : QunetMessageMeta → Option η) extends QunetMessageMeta where
  header : η
  has_header : get toQunetMessageMeta = some header
  deriving DecidableEq

/-- What `ReliableStore::handleIncoming` takes. -/
abbrev ReliableMeta := HeaderMeta QunetMessageMeta.reliabilityHeader

/-- What `FragmentStore::processFragment` takes. -/
abbrev FragmentMeta := HeaderMeta QunetMessageMeta.fragmentationHeader

/-- `m` with its header, when it has one. -/
def HeaderMeta.of? {η : Type} (get : QunetMessageMeta → Option η) (m : QunetMessageMeta) : Option (HeaderMeta get) :=
  match h : get m with
  | none => none
  | some hdr => some ⟨m, hdr, h⟩

theorem HeaderMeta.of?_eq_some {η : Type} {get : QunetMessageMeta → Option η} {m : QunetMessageMeta}
    {r : HeaderMeta get} : of? get m = some r ↔ r.toQunetMessageMeta = m := by
  obtain ⟨rm, rh, hr⟩ := r
  unfold of?
  constructor
  · intro h
    split at h
    · cases h
    · cases h; rfl
  · rintro rfl
    dsimp only at hr ⊢
    split
    · next h => rw [hr] at h; cases h
    · next hdr h =>
      rw [hr] at h
      cases h; rfl

theorem HeaderMeta.of?_eq_none {η : Type} {get : QunetMessageMeta → Option η} {m : QunetMessageMeta} :
    of? get m = none ↔ get m = none := by
  unfold of?
  split <;> simp_all

/-! ## Messages -/

structure KeepaliveMessage where
  timestamp : UInt64
  deriving DecidableEq

structure KeepaliveResponseMessage where
  timestamp : UInt64
  data : Bytes
  deriving DecidableEq

structure ProtocolVersion where
  major : UInt16
  minor : UInt16
  deriving DecidableEq

structure HandshakeStartMessage where
  protocolVersion : ProtocolVersion
  fragLimit : UInt16
  qdbHash : Vector UInt8 16
  deriving DecidableEq

structure QdbData where
  uncompressedSize : UInt32
  compressedSize : UInt32
  chunkOffset : UInt32
  chunkSize : UInt32
  chunkData : Bytes
  deriving DecidableEq

structure HandshakeFinishMessage where
  connectionId : UInt64
  qdbData : Option QdbData
  deriving DecidableEq

structure HandshakeFailureMessage where
  errorCode : UInt32
  errorMessage : Bytes
  deriving DecidableEq

structure ServerCloseMessage where
  errorCode : UInt32
  errorMessage : Bytes
  deriving DecidableEq

structure ClientReconnectMessage where
  connectionId : UInt64
  deriving DecidableEq

structure ConnectionErrorMessage where
  errorCode : UInt32
  deriving DecidableEq

inductive ConnectionControlMessage where
  | pmtudProbe (data : Bytes)
  | setMtu (mtu : UInt16)
  deriving DecidableEq

structure DataMessage where
  data : Bytes
  compHeader : Option CompressionHeader := none
  relHeader : Option ReliabilityHeader := none
  deriving DecidableEq

inductive QunetMessage where
  | keepalive (m : KeepaliveMessage)
  | keepaliveResponse (m : KeepaliveResponseMessage)
  | handshakeStart (m : HandshakeStartMessage)
  | handshakeFinish (m : HandshakeFinishMessage)
  | handshakeFailure (m : HandshakeFailureMessage)
  | clientClose
  | serverClose (m : ServerCloseMessage)
  | clientReconnect (m : ClientReconnectMessage)
  | connectionError (m : ConnectionErrorMessage)
  | reconnectSuccess
  | reconnectFailure
  | connectionControl (m : ConnectionControlMessage)
  | padding
  | data (m : DataMessage)
  deriving DecidableEq

end Qunet
