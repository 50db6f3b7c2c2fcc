import Qunet.Connection.Socket
import Qunet.Stream.Framing
import Qunet.Udp.ControlMessages
import Qunet.Ws.Transport

/-!
# Compressing what is sent (`Socket.cpp`, `compression/`)

* `CompressionLibraries` : zstd and LZ4; `RoundTrips`, what is relied on; `Receiver`, the other end;
* `shouldCompress`, `doCompress`, `Socket.sendMessage`;
* `StreamKind` : the transports other than UDP, and what they write;
* `doCompress_restores`, `compressAs_restores` : what is compressed is decompressed;
* **`sent_payload_received`** : the body of a sent data message is read back as its payload.
-/

namespace Qunet
open Lib

/-! ## The libraries -/

/-- zstd and LZ4. Compressing takes the room for the result, decompressing the expected size; nothing is returned when
the library reports an error. A zstd context may have a dictionary. -/
structure CompressionLibraries where
  zstdBound : Nat → Nat
  zstdCompress : Option Bytes → Bytes → Nat → Option Bytes
  zstdDecompress : Option Bytes → Bytes → Nat → Option Bytes
  lz4Bound : Nat → Nat
  lz4Compress : Bytes → Nat → Option Bytes
  lz4Decompress : Bytes → Nat → Option Bytes

/-- What was compressed, with a dictionary or without, is decompressed in the same way to the same bytes. -/
structure CompressionLibraries.RoundTrips (lib : CompressionLibraries) : Prop where
  zstd : ∀ dict src room dst, src.length < 2 ^ 31 → lib.zstdCompress dict src room = some dst →
    lib.zstdDecompress dict dst src.length = some src
  lz4 : ∀ src room dst, src.length < 2 ^ 31 → lib.lz4Compress src room = some dst →
    lib.lz4Decompress dst src.length = some src

def ZstdCompressor.compress (lib : CompressionLibraries) (c : Compressor) (noDict : Bool) (src : Bytes) (room : Nat) :
    Except CompressorError Bytes :=
  match c with
  | .initialized dict =>
    match lib.zstdCompress (if dict.isSome && !noDict then dict else none) src room with
    | none => .error .compressionFailed
    | some dst => .ok dst
  | .created | .movedFrom => .error .notInitialized

def Lz4Compressor.compress (lib : CompressionLibraries) (src : Bytes) (room : Nat) : Except CompressorError Bytes :=
  match lib.lz4Compress src room with
  | none => .error .compressionFailed
  | some dst => .ok dst

/-! ## The socket -/

namespace Socket

/-- Nothing is returned where it unwraps an error. -/
def shouldCompress (lib : CompressionLibraries) (data : Bytes) : Option CompressionType :=
  if data.length < 128 then some .none
  else
    match Lz4Compressor.compress lib data (lib.lz4Bound data.length) with
    | .error _ => none
    | .ok compressed =>
      -- LZ4 is ineffective
      if compressed.length ≥ data.length ∧ data.length < 1024 then some .none
      -- zstd for larger packets
      else if data.length ≥ 512 then some .zstd
      -- zstd if the packet is slightly compressible
      else if compressed.length + compressed.length / 16 < data.length then some .zstd
      else some .lz4

/-- `compress` has as much room as `bound` says. If it does not help, the message stays as it is. -/
def doCompress (bound : Nat → Nat) (compress : Bytes → Nat → Except CompressorError Bytes) (type : CompressionType)
    (message : DataMessage) : Except CompressorError DataMessage := do
  let uncSize := UInt32.ofNat message.data.length
  let compressedData ← compress (message.data.take uncSize.toNat) (bound uncSize.toNat)
  if compressedData.length ≥ uncSize.toNat then return message
  return { message with data := compressedData, compHeader := some ⟨type, uncSize⟩ }

def doCompressZstd (lib : CompressionLibraries) (t : SocketTransport) (message : DataMessage) :
    Bool → Except CompressorError DataMessage
  | true => doCompress lib.zstdBound (ZstdCompressor.compress lib t.zstdCompressor false) .zstd message
  | false => doCompress lib.zstdBound (ZstdCompressor.compress lib t.zstdCompressor true) .zstdNoDict message

def doCompressLz4 (lib : CompressionLibraries) (message : DataMessage) : Except CompressorError DataMessage :=
  doCompress lib.lz4Bound (Lz4Compressor.compress lib) .lz4 message

/-- The `switch` over the compression type. -/
def compressAs (lib : CompressionLibraries) (t : SocketTransport) (message : DataMessage) :
    CompressionType → Except CompressorError DataMessage
  | .zstd => doCompressZstd lib t message true
  | .zstdNoDict => doCompressZstd lib t message false
  | .lz4 => doCompressLz4 lib message
  | .none => return message

end Socket

/-- The message that `m_transport->sendMessage` is given. The `answer` is that of `shouldCompress lib`, or any other. -/
def Socket.outgoingMessage (lib : CompressionLibraries) (answer : Bytes → Option CompressionType) (t : SocketTransport)
    (outgoing : OutgoingMessage) : Option (Except TransportError QunetMessage) :=
  match outgoing.message with
  | .data msg =>
    (if outgoing.uncompressed then some .none else answer msg.data).map fun ctype =>
      ((compressAs lib t msg ctype).map .data).mapError .compressor
  | message => some (.ok message)

/-! ## Stream and WebSocket transports -/

inductive StreamKind where
  | tcp | quic | webSocket
  deriving DecidableEq

section
variable [Dbuf]

/-- The header and what follows it; nothing for a message that cannot be encoded. -/
def messageBytes : QunetMessage → Option Bytes
  | .data msg => some (streamBody msg)
  | message => message.encodeControlMsg 0

/-- `hasLength`. -/
def hasLength : QunetMessage → Bool
  | .handshakeStart _ | .clientReconnect _ => false
  | _ => true

namespace StreamKind

/-- A keepalive message is stamped, but not by QUIC. -/
def stamp (kind : StreamKind) (timestamp : UInt64) : QunetMessage → QunetMessage
  | .keepalive m => .keepalive (if kind = .quic then m else ⟨timestamp⟩)
  | message => message

/-- What is written to the socket; `prependLength` keeps the length in 32 bits. -/
def written (kind : StreamKind) (message : QunetMessage) : Option Bytes := do
  let body ← messageBytes message
  if kind = .webSocket ∨ hasLength message = false then return body
  return Dbuf.u32.write (UInt32.ofNat body.length) ++ body

/-- The message in what was written for a data message. -/
def body (kind : StreamKind) (written : Bytes) : Bytes := if kind = .webSocket then written else written.drop 4

/-- `sent` is what the socket returns. -/
def sendMessage (kind : StreamKind) (timestamp : UInt64) (sent : Except TransportError Unit) (message : QunetMessage) :
    Option (Except TransportError Bytes) := do
  let bytes ← kind.written (kind.stamp timestamp message)
  return sent.map fun _ => bytes

theorem body_written {kind : StreamKind} {msg : DataMessage} {bytes : Bytes}
    (h : kind.written (.data msg) = some bytes) : kind.body bytes = streamBody msg := by
  unfold written body at *
  by_cases hkind : kind = .webSocket
  · simp_all [messageBytes]
  · simp only [messageBytes, hasLength, hkind] at h
    simp at h
    rw [if_neg hkind, ← h, List.drop_left' (by simp)]

end StreamKind

/-- The bytes that the transport has written; the statistics are left out. -/
def Socket.sendMessage (lib : CompressionLibraries) (answer : Bytes → Option CompressionType) (kind : StreamKind)
    (timestamp : UInt64) (sent : Except TransportError Unit) (t : SocketTransport) (outgoing : OutgoingMessage) :
    Option (Except TransportError Bytes) := do
  match ← outgoingMessage lib answer t outgoing with
  | .error e => return .error e
  | .ok message => kind.sendMessage timestamp sent message

end

/-! ## The other end -/

/-- A transport that decompresses with the same libraries and this dictionary. -/
structure Receiver (lib : CompressionLibraries) (dict : Option Bytes) (w : World) (t : BaseTransport) : Prop where
  ready : t.zstdReady = true
  hasDict : t.zstdDict = dict.isSome
  zstd : ∀ useDict src size, w.zstd useDict src size = lib.zstdDecompress (if useDict then dict else none) src size
  lz4 : ∀ src size, w.lz4 src size = lib.lz4Decompress src size

/-- The receiver's compressed payload. -/
def BaseTransport.decompress (w : World) (t : BaseTransport) (m : QunetMessageMeta) : Except TransportError Bytes :=
  UdpTransport.decompress w { messageSizeLimit := t.messageSizeLimit, zstdReady := t.zstdReady, zstdDict := t.zstdDict
                              tracker := t.tracker } m

/-- The choice of the decompressor. -/
def BaseTransport.decompressAs (w : World) (t : BaseTransport) (type : CompressionType) (data : Bytes) (size : Nat) :
    Except DecompressorError Bytes :=
  match type with
  | .lz4 => UdpTransport.lz4Decompress w data size
  | type => UdpTransport.zstdDecompress w { zstdReady := t.zstdReady, zstdDict := t.zstdDict } data size
      (type = CompressionType.zstdNoDict)

theorem BaseTransport.decompress_compressed {w : World} {t : BaseTransport} {m : QunetMessageMeta}
    {h : DecodedCompression} (hcomp : m.compressionHeader = some h)
    (hlimit : h.uncompressedSize.toNat ≤ t.messageSizeLimit) :
    t.decompress w m = (t.decompressAs w h.type m.data h.uncompressedSize.toNat).mapError .decompressor := by
  unfold decompress UdpTransport.decompress
  rw [hcomp]
  dsimp only
  rw [if_neg (by omega)]
  cases h.type <;> rfl

theorem decodePreFinalDataMessage_of_decompress {w : World} {t : BaseTransport} {m : QunetMessageMeta} {data : Bytes}
    (h : t.decompress w m = .ok data) : (t.decodePreFinalDataMessage w m).1 = .ok (.data { data }) := by
  unfold BaseTransport.decompress at h
  unfold BaseTransport.decodePreFinalDataMessage UdpTransport.decodePreFinalDataMessage
  dsimp only
  rw [h]
  rfl

section
variable {lib : CompressionLibraries} {dict : Option Bytes} {w : World} {t : BaseTransport}

theorem Receiver.restores_zstd (hlib : lib.RoundTrips) (h : Receiver lib dict w t) {noDict : Bool} {src dst : Bytes}
    {room : Nat} {c : Compressor} (hsame : ∀ dict', c = .initialized dict' → dict' = dict) (hsize : src.length < 2 ^ 31)
    (hcompress : ZstdCompressor.compress lib c noDict src room = .ok dst) :
    t.decompressAs w (if noDict then .zstdNoDict else .zstd) dst src.length = .ok src := by
  cases c with
  | created => cases hcompress
  | movedFrom => cases hcompress
  | initialized dict' =>
    obtain rfl := hsame dict' rfl
    unfold ZstdCompressor.compress at hcompress
    dsimp only at hcompress
    split at hcompress
    · cases hcompress
    · next hdst =>
      cases hcompress
      have hback := hlib.zstd _ src room dst hsize hdst
      have hdecompress : UdpTransport.zstdDecompress w { zstdReady := t.zstdReady, zstdDict := t.zstdDict } dst
          src.length noDict = .ok src := by
        unfold UdpTransport.zstdDecompress
        rw [h.ready, h.hasDict, h.zstd, hback]
        simp
      cases noDict <;> exact hdecompress

theorem Receiver.restores_lz4 (hlib : lib.RoundTrips) (h : Receiver lib dict w t) {src dst : Bytes} {room : Nat}
    (hsize : src.length < 2 ^ 31) (hcompress : Lz4Compressor.compress lib src room = .ok dst) :
    t.decompressAs w .lz4 dst src.length = .ok src := by
  unfold Lz4Compressor.compress at hcompress
  split at hcompress
  · cases hcompress
  · next hdst =>
    cases hcompress
    have hback := hlib.lz4 src room dst hsize hdst
    unfold BaseTransport.decompressAs UdpTransport.lz4Decompress
    dsimp only
    rw [h.lz4, hback]
    simp

/-- A message that is received with this header and data is decompressed to the payload. -/
def Restores (w : World) (t : BaseTransport) (msg : DataMessage) (payload : Bytes) : Prop :=
  ∀ m : QunetMessageMeta, m.compressionHeader.map (·.toCompressionHeader) = msg.compHeader → m.data = msg.data →
    t.decompress w m = .ok payload

theorem restores_plain {msg : DataMessage} (h : msg.compHeader = none) : Restores w t msg msg.data := by
  intro m hcomp hdata
  rw [h, Option.map_eq_none_iff] at hcomp
  unfold BaseTransport.decompress UdpTransport.decompress
  rw [hcomp, hdata]

/-- Either the message stays as it is, or the result is shorter and the header says what it was. -/
theorem Socket.doCompress_cases {bound : Nat → Nat} {compress : Bytes → Nat → Except CompressorError Bytes}
    {type : CompressionType} {msg msg' : DataMessage} (hsize : msg.data.length < 2 ^ 31)
    (h : doCompress bound compress type msg = .ok msg') :
    msg' = msg ∨ ∃ compressed header, compress msg.data (bound msg.data.length) = .ok compressed ∧
      compressed.length < msg.data.length ∧ header.type = type ∧ header.uncompressedSize.toNat = msg.data.length ∧
      msg' = { msg with data := compressed, compHeader := some header } := by
  have hunc : (UInt32.ofNat msg.data.length).toNat = msg.data.length :=
    UInt32.toNat_ofNat_of_lt' (by show _ < 2 ^ 32; omega)
  unfold doCompress at h
  dsimp only at h
  rw [hunc, List.take_length] at h
  cases hcompressed : compress msg.data (bound msg.data.length) with
  | error e =>
    rw [hcompressed] at h
    cases h
  | ok compressed =>
    rw [hcompressed] at h
    change (if compressed.length ≥ msg.data.length then pure msg else pure _) = _ at h
    split at h
    · cases h
      exact Or.inl rfl
    · next hshorter =>
      cases h
      exact Or.inr ⟨compressed, _, rfl, Nat.lt_of_not_le hshorter, rfl, hunc, rfl⟩

/-- When LZ4 is chosen, it helps. -/
theorem Socket.shouldCompress_lz4 {msg : DataMessage} (h : shouldCompress lib msg.data = some .lz4) :
    ∃ msg', doCompressLz4 lib msg = .ok msg' ∧ msg'.data.length < msg.data.length := by
  unfold shouldCompress at h
  split at h
  · cases h
  · split at h
    · cases h
    · next compressed hcompressed =>
      by_cases hbad : compressed.length ≥ msg.data.length ∧ msg.data.length < 1024
      · rw [if_pos hbad] at h
        cases h
      · rw [if_neg hbad] at h
        by_cases hlarge : msg.data.length ≥ 512
        · rw [if_pos hlarge] at h
          cases h
        · have hhelps : compressed.length < msg.data.length := by omega
          have hunc : (UInt32.ofNat msg.data.length).toNat = msg.data.length :=
            UInt32.toNat_ofNat_of_lt' (by show _ < 2 ^ 32; omega)
          let header : CompressionHeader := ⟨.lz4, UInt32.ofNat msg.data.length⟩
          refine ⟨{ msg with data := compressed, compHeader := some header }, ?_, hhelps⟩
          unfold doCompressLz4 doCompress
          dsimp only
          rw [hunc, List.take_length, hcompressed]
          exact if_neg (by omega)

/-- What the compressor of one type has done, the decompressor of that type undoes. -/
theorem doCompress_restores {bound : Nat → Nat} {compress : Bytes → Nat → Except CompressorError Bytes}
    {type : CompressionType} {msg msg' : DataMessage} (hfresh : msg.compHeader = none)
    (hsize : msg.data.length < 2 ^ 31) (hlimit : msg.data.length ≤ t.messageSizeLimit)
    (hback : ∀ dst room, compress msg.data room = .ok dst → t.decompressAs w type dst msg.data.length = .ok msg.data)
    (h : Socket.doCompress bound compress type msg = .ok msg') : Restores w t msg' msg.data := by
  obtain rfl | ⟨dst, header, hdst, -, htype, hunc, rfl⟩ := Socket.doCompress_cases hsize h
  · exact restores_plain hfresh
  · intro m hcomp hdata
    obtain ⟨decoded, hdecoded, rfl⟩ := Option.map_eq_some_iff.mp hcomp
    rw [BaseTransport.decompress_compressed hdecoded (by omega), htype, hdata, hunc, hback _ _ hdst]
    rfl

/-- Whatever type is chosen, the receiver gets the payload back. -/
theorem compressAs_restores (hlib : lib.RoundTrips) (hreceiver : Receiver lib dict w t) {s : SocketTransport}
    (hsame : ∀ dict', s.zstdCompressor = .initialized dict' → dict' = dict) {msg msg' : DataMessage}
    {ctype : CompressionType} (hfresh : msg.compHeader = none) (hsize : msg.data.length < 2 ^ 31)
    (hlimit : msg.data.length ≤ t.messageSizeLimit) (h : Socket.compressAs lib s msg ctype = .ok msg') :
    Restores w t msg' msg.data := by
  cases ctype with
  | none =>
    cases h
    exact restores_plain hfresh
  | zstd =>
    exact doCompress_restores hfresh hsize hlimit (fun _ _ hdst => hreceiver.restores_zstd hlib hsame hsize hdst) h
  | zstdNoDict =>
    exact doCompress_restores hfresh hsize hlimit (fun _ _ hdst => hreceiver.restores_zstd hlib hsame hsize hdst) h
  | lz4 => exact doCompress_restores hfresh hsize hlimit (fun _ _ hdst => hreceiver.restores_lz4 hlib hsize hdst) h

/-- What the `switch` over the types does to a message keeps what leaving it alone and each compressor keep. -/
theorem compressAs_cases {s : SocketTransport} {msg msg' : DataMessage} {ctype : CompressionType}
    (hsize : msg.data.length < 2 ^ 31) (h : Socket.compressAs lib s msg ctype = .ok msg') :
    msg' = msg ∨ ∃ compressed header, header.type = ctype ∧ ctype ≠ .none ∧
      msg' = { msg with data := compressed, compHeader := some header } := by
  have hshorter : ∀ {bound compress}, ctype ≠ .none → Socket.doCompress bound compress ctype msg = .ok msg' →
      msg' = msg ∨ ∃ compressed header, header.type = ctype ∧ ctype ≠ .none ∧
        msg' = { msg with data := compressed, compHeader := some header } := by
    intro bound compress hne h
    obtain rfl | ⟨compressed, header, -, -, htype, -, rfl⟩ := Socket.doCompress_cases hsize h
    · exact .inl rfl
    · exact .inr ⟨compressed, header, htype, hne, rfl⟩
  cases ctype with
  | none =>
    cases h
    exact .inl rfl
  | zstd => exact hshorter (by decide) h
  | zstdNoDict => exact hshorter (by decide) h
  | lz4 => exact hshorter (by decide) h

/-- Compressing adds no reliability header. -/
theorem compressAs_relHeader {s : SocketTransport} {msg msg' : DataMessage} {ctype : CompressionType}
    (hsize : msg.data.length < 2 ^ 31) (h : Socket.compressAs lib s msg ctype = .ok msg') :
    msg'.relHeader = msg.relHeader := by
  obtain rfl | ⟨compressed, header, -, -, rfl⟩ := compressAs_cases hsize h <;> rfl

/-- The header that it adds names the algorithm. -/
theorem compressAs_namesAlgorithm {s : SocketTransport} {msg msg' : DataMessage} {ctype : CompressionType}
    (hfresh : msg.compHeader = none) (hsize : msg.data.length < 2 ^ 31)
    (h : Socket.compressAs lib s msg ctype = .ok msg') : msg'.NamesAlgorithm := by
  obtain rfl | ⟨compressed, header, htype, hne, rfl⟩ := compressAs_cases hsize h
  · exact namesAlgorithm_of_none hfresh
  · rintro c ⟨⟩
    rwa [htype]

end

/-! ## Round trips -/

section
variable [Dbuf]

/-- A data message that was sent: what it was compressed to, and what was written. -/
theorem Socket.sendMessage_data {lib : CompressionLibraries} {answer : Bytes → Option CompressionType}
    {kind : StreamKind} {timestamp : UInt64} {sent : Except TransportError Unit} {s : SocketTransport}
    {outgoing : OutgoingMessage} {msg : DataMessage} {bytes : Bytes} (hdata : outgoing.message = .data msg)
    (h : Socket.sendMessage lib answer kind timestamp sent s outgoing = some (.ok bytes)) :
    ∃ ctype msg', Socket.compressAs lib s msg ctype = .ok msg' ∧ kind.body bytes = streamBody msg' := by
  obtain ⟨r, hout, hsend⟩ := Option.bind_eq_some_iff.mp h
  unfold Socket.outgoingMessage at hout
  rw [hdata] at hout
  obtain ⟨ctype, -, hctype⟩ := Option.map_eq_some_iff.mp hout
  subst hctype
  cases hmsg : Socket.compressAs lib s msg ctype with
  | error e =>
    rw [hmsg] at hsend
    cases hsend
  | ok msg' =>
    rw [hmsg] at hsend
    obtain ⟨written, hwritten, hsent⟩ := Option.bind_eq_some_iff.mp hsend
    cases sent with
    | error e => cases hsent
    | ok =>
      cases hsent
      exact ⟨ctype, msg', hmsg, StreamKind.body_written hwritten⟩

/-- **Payloads survive compression.** When a fresh data message is sent on a stream or a WebSocket, whatever
`shouldCompress` answers, the body that was written is read back as the payload. -/
theorem sent_payload_received {lib : CompressionLibraries} (hlib : lib.RoundTrips) {dict : Option Bytes} {w : World}
    {t : BaseTransport} (hreceiver : Receiver lib dict w t) {s : SocketTransport}
    (hsame : ∀ dict', s.zstdCompressor = .initialized dict' → dict' = dict) (answer : Bytes → Option CompressionType)
    (kind : StreamKind) (timestamp : UInt64) (sent : Except TransportError Unit) {payload : Bytes}
    (hsize : payload.length < 2 ^ 31) (hlimit : payload.length ≤ t.messageSizeLimit) (reliable uncompressed : Bool)
    (tag : Text) {bytes : Bytes}
    (hsend : Socket.sendMessage lib answer kind timestamp sent s
      { message := .data { data := payload }, reliable, uncompressed, tag } = some (.ok bytes)) :
    ∃ m, decodeStreamMeta (kind.body bytes) = some (.ok m) ∧ m.type = msgData ∧
      (t.decodePreFinalDataMessage w m).1 = .ok (.data { data := payload }) := by
  obtain ⟨ctype, msg, hmsg, hbody⟩ := Socket.sendMessage_data rfl hsend
  have hrel : msg.relHeader = none := compressAs_relHeader hsize hmsg
  have hrestores := compressAs_restores hlib hreceiver hsame rfl hsize hlimit hmsg
  obtain ⟨⟨m, ⟨_, _, hbytes, hdec⟩, htype, hcomp, -, hdata⟩, -⟩ :=
    streamBody_decodes (compressAs_namesAlgorithm rfl hsize hmsg) hrel
  refine ⟨m, ?_, htype, decodePreFinalDataMessage_of_decompress (hrestores m hcomp hdata)⟩
  rw [hbody, hbytes]
  exact congrArg some hdec

end

/-! ### A compressed payload -/

def repeatedPayload : Bytes := List.replicate 128 0x61

theorem repeatedPayload_length : repeatedPayload.length = 128 := List.length_replicate

/-- A literal, a match of 122 bytes at the distance 1, and five literals. -/
def repeatedBlock : Bytes := [0x1f, 0x61, 1, 0, 0x67, 0x50, 0x61, 0x61, 0x61, 0x61, 0x61]

/-- The length of the message, its header byte, the size of the payload. -/
def repeatedFrame : Bytes := [16, 0, 0, 0] ++ [0x83, 128, 0, 0, 0] ++ repeatedBlock

/-- What the libraries do with this payload; zstd is not used. -/
def repeatedLibraries : CompressionLibraries where
  zstdBound n := n + n / 256 + 64
  zstdCompress _ _ _ := none
  zstdDecompress _ _ _ := none
  lz4Bound n := n + n / 255 + 16
  lz4Compress src room := if src = repeatedPayload ∧ repeatedBlock.length ≤ room then some repeatedBlock else none
  lz4Decompress src size := if src = repeatedBlock ∧ repeatedPayload.length ≤ size then some repeatedPayload else none

theorem repeatedLibraries_roundTrips : repeatedLibraries.RoundTrips where
  zstd _ _ _ _ _ h := by cases h
  lz4 src room dst _ h := by
    dsimp only [repeatedLibraries] at h
    split at h
    · next hsrc =>
      cases h
      rw [hsrc.1]
      simp [repeatedLibraries]
    · cases h

/-- It is sent over TCP. -/
theorem repeatedPayload_received :
    @Socket.sendMessage Dbuf.little repeatedLibraries (fun _ => some .lz4) .tcp 0 (.ok ()) {}
      { message := .data { data := repeatedPayload } } = some (.ok repeatedFrame) ∧
    ∃ m, @decodeStreamMeta Dbuf.little (StreamKind.tcp.body repeatedFrame) = some (.ok m) ∧ m.type = msgData ∧
      (BaseTransport.decodePreFinalDataMessage
        { UdpTransport.idleWorld with zstd := fun _ _ _ => none, lz4 := repeatedLibraries.lz4Decompress }
        { zstdReady := true } m).1 = .ok (.data { data := repeatedPayload }) := by
  have hsend : @Socket.sendMessage Dbuf.little repeatedLibraries (fun _ => some .lz4) .tcp 0 (.ok ()) {}
      { message := .data { data := repeatedPayload } } = some (.ok repeatedFrame) := by decide +kernel
  have hreceiver : Receiver repeatedLibraries none
      { UdpTransport.idleWorld with zstd := fun _ _ _ => none, lz4 := repeatedLibraries.lz4Decompress }
      { zstdReady := true } := ⟨rfl, rfl, fun _ _ _ => rfl, fun _ _ => rfl⟩
  have hlength := repeatedPayload_length
  have hlimit : repeatedPayload.length ≤ sizeMax := by
    rw [hlength]
    decide
  exact ⟨hsend, @sent_payload_received Dbuf.little repeatedLibraries repeatedLibraries_roundTrips none _ _ hreceiver {}
    (fun _ h => by cases h) (fun _ => some .lz4) .tcp 0 (.ok ()) repeatedPayload (by omega) hlimit false false []
    repeatedFrame hsend⟩

end Qunet
