import Qunet.Connection.Compressing
import Qunet.Udp.Fragmenting

/-!
# Preset compression headers (`Socket.cpp`)

* `AnyTransport`, `Socket.sendOver` : a message is compressed and sent over any transport;
* `Socket.shrunk`, `compressAs_eq` : what compressing makes of the data, whatever header the message had;
* `Socket.sendOver_data` : what becomes of a data message, with or without a compression header of its own;
* **`presetIgnored_iff`** : the header is ignored exactly if compressing replaces it.
-/

namespace Qunet
open Lib Socket

/-! ## Sending over any transport -/

/-- The transport of a socket. `UdpTransport::connect` sets the MTU to `UDP_SAFE_MTU`. -/
inductive AnyTransport where
  | stream (kind : StreamKind)
  | udp (t : UdpTransport) (mtu : t.mtu = udpSafeMtu)

/-- What a call takes from outside: the time in a keepalive message, what a stream's socket returns, and what happens to
datagrams. -/
structure WireWorld where
  timestamp : UInt64
  sent : Except TransportError Unit
  datagrams : SendWorld

/-- The sockets take everything. -/
def WireWorld.openWorld : WireWorld := ⟨0, .ok (), UdpTransport.openLink⟩

section
variable [Dbuf]

/-- `m_transport->sendMessage`: its result, and what the socket was given. -/
def AnyTransport.sendMessage (w : WireWorld) (reliable : Bool) (message : QunetMessage) :
    AnyTransport → Option (Except TransportError Unit × List Bytes)
  | .stream kind => (kind.sendMessage w.timestamp w.sent message).map fun
    | .ok bytes => (.ok (), [bytes])
    | .error e => (.error e, [])
  | .udp t _ =>
    match message with
    | .data msg => (t.sendMessage w.datagrams msg.data msg.compHeader reliable).map fun r => (r.1, r.2.1)
    | .keepalive _ => sendControl t (.keepalive ⟨w.timestamp⟩)
    | message => sendControl t message
where
  sendControl (t : UdpTransport) (message : QunetMessage) : Option (Except TransportError Unit × List Bytes) :=
    (message.encodeControlMsg t.connectionId).map fun encoded =>
      let r := t.sendControl w.datagrams encoded
      (r.1, r.2.1)

/-- `Socket::sendMessage` -/
def Socket.sendOver (lib : CompressionLibraries) (t : SocketTransport) (link : AnyTransport) (w : WireWorld)
    (outgoing : OutgoingMessage) : Option (Except TransportError Unit × List Bytes) := do
  match ← outgoingMessage lib (shouldCompress lib) t outgoing with
  | .error e => return (.error e, [])
  | .ok message => link.sendMessage w outgoing.reliable message

/-! ## What compressing makes of the data -/

namespace Socket

/-- The type that a data message is compressed with. -/
def chosenType (lib : CompressionLibraries) (uncompressed : Bool) (data : Bytes) : Option CompressionType :=
  if uncompressed then some .none else shouldCompress lib data

/-- The answer of the compressor that is chosen; nothing is asked for `None`. -/
def chosenAnswer (lib : CompressionLibraries) (t : SocketTransport) (data : Bytes) :
    CompressionType → Option (Except CompressorError Bytes)
  | .zstd => ask lib.zstdBound (ZstdCompressor.compress lib t.zstdCompressor false)
  | .zstdNoDict => ask lib.zstdBound (ZstdCompressor.compress lib t.zstdCompressor true)
  | .lz4 => ask lib.lz4Bound (Lz4Compressor.compress lib)
  | .none => none
where
  ask (bound : Nat → Nat) (compress : Bytes → Nat → Except CompressorError Bytes) :
      Option (Except CompressorError Bytes) :=
    some (compress (data.take (UInt32.ofNat data.length).toNat) (bound (UInt32.ofNat data.length).toNat))

/-- The data and the header of the compressed message; nothing if the message is left as it came. -/
def shrunk (lib : CompressionLibraries) (t : SocketTransport) (data : Bytes) (type : CompressionType) :
    Except CompressorError (Option (Bytes × CompressionHeader)) :=
  (chosenAnswer lib t data type).elim (.ok none) fun answer => answer.map fun compressed =>
    if compressed.length ≥ (UInt32.ofNat data.length).toNat then none
    else some (compressed, ⟨type, UInt32.ofNat data.length⟩)

omit [Dbuf] in
/-- **The header that the message had is not looked at.** -/
theorem compressAs_eq (lib : CompressionLibraries) (t : SocketTransport) (msg : DataMessage) (type : CompressionType) :
    compressAs lib t msg type = (shrunk lib t msg.data type).map fun r =>
      r.elim msg fun r => { msg with data := r.1, compHeader := some r.2 } := by
  have hdo : ∀ (bound : Nat → Nat) (compress : Bytes → Nat → Except CompressorError Bytes),
      chosenAnswer lib t msg.data type = chosenAnswer.ask msg.data bound compress →
      doCompress bound compress type msg = (shrunk lib t msg.data type).map fun r =>
        r.elim msg fun r => { msg with data := r.1, compHeader := some r.2 } := by
    intro bound compress hanswer
    unfold doCompress shrunk
    rw [hanswer]
    unfold chosenAnswer.ask
    generalize UInt32.ofNat msg.data.length = size
    simp only [Option.elim_some]
    cases compress (msg.data.take size.toNat) (bound size.toNat) with
    | error e => rfl
    | ok compressed =>
      by_cases hhelps : compressed.length ≥ size.toNat
      · simp [hhelps, Except.map, bind, Except.bind, pure, Except.pure]
      · simp [hhelps, Except.map, bind, Except.bind, pure, Except.pure]
  cases type with
  | none => rfl
  | zstd => exact hdo _ _ rfl
  | zstdNoDict => exact hdo _ _ rfl
  | lz4 => exact hdo _ _ rfl

end Socket

/-! ## Messages that come with a header -/

/-- **The socket on a data message**, whatever header it comes with. -/
theorem Socket.sendOver_data (lib : CompressionLibraries) (t : SocketTransport) (link : AnyTransport) (w : WireWorld)
    (reliable uncompressed : Bool) (tag : Text) (msg : DataMessage) :
    Socket.sendOver lib t link w { message := .data msg, reliable, uncompressed, tag } =
      (chosenType lib uncompressed msg.data).bind fun type =>
        match shrunk lib t msg.data type with
        | .error e => some (.error (.compressor e), [])
        | .ok none => link.sendMessage w reliable (.data msg)
        | .ok (some (compressed, header)) =>
          link.sendMessage w reliable (.data { msg with data := compressed, compHeader := some header }) := by
  unfold sendOver outgoingMessage
  dsimp only
  rw [← chosenType]
  cases chosenType lib uncompressed msg.data with
  | none => rfl
  | some type =>
    simp only [Option.bind_eq_bind, Option.bind_some, Option.map_some, compressAs_eq]
    rcases shrunk lib t msg.data type with e | _ | ⟨compressed, header⟩ <;> rfl

/-- What is written does not depend on the compression header that the message comes with, whatever happens on the way.
Against no header at all: a message that is left as it came is written without one. -/
def PresetIgnored (lib : CompressionLibraries) (t : SocketTransport) (link : AnyTransport)
    (reliable uncompressed : Bool) (msg : DataMessage) : Prop :=
  ∀ w tag preset preset',
    (Socket.sendOver lib t link w
        { message := .data { msg with compHeader := preset }, reliable, uncompressed, tag }).map (·.2) =
      (Socket.sendOver lib t link w
        { message := .data { msg with compHeader := preset' }, reliable, uncompressed, tag }).map (·.2)

/-- If `shouldCompress` answers, it chooses a compressor, which either fails or returns less than it was given. -/
def Replaces (lib : CompressionLibraries) (t : SocketTransport) (data : Bytes) : Prop :=
  ∀ type, shouldCompress lib data = some type → ∃ answer, chosenAnswer lib t data type = some answer ∧
    ∀ compressed, answer = .ok compressed → compressed.length < (UInt32.ofNat data.length).toNat

/-! ## The header byte of what is written -/

omit [Dbuf] in
theorem dataHeaderByte_type (msg : DataMessage) :
    CompressionType.ofBits (dataHeaderByte msg false &&& 0b11) = msg.compType := by
  rw [dataHeaderByte_eq]
  exact (dataByte_bits _ _ _).2.1

omit [Dbuf] in
theorem dataHeaderByte_fragment_type (msg : DataMessage) :
    CompressionType.ofBits ((dataHeaderByte msg false ||| msgDataFragmentationMask) &&& 0b11) = msg.compType := by
  rw [dataHeaderByte_fragment]
  exact (dataByte_bits _ _ _).2.1

/-- The first datagram of a data message starts with its header byte. -/
theorem doSendUnfragmentedData_header {t : UdpTransport} (msg : DataMessage) (retransmission : Bool)
    (hrel : ∀ h ∈ msg.relHeader, h.ackCount ≤ 8) (hmtu : t.mtu = 1200) :
    ∃ b r t' datagram rest, t.doSendUnfragmentedData UdpTransport.openLink msg retransmission =
      some (r, (b :: datagram) :: rest, t') ∧ CompressionType.ofBits (b &&& 0b11) = msg.compType := by
  have hopen : ∀ i, UdpTransport.openLink.link i = .sent := fun _ => rfl
  by_cases hfit : msg.unfragTotalSize ≤ t.mtu
  · obtain ⟨r, t', hsend⟩ := doSendUnfragmentedData_fits retransmission hfit UdpTransport.openLink
    rw [emittedAll_sent hopen] at hsend
    exact ⟨_, r, t', _, [], hsend, dataHeaderByte_type msg⟩
  · obtain ⟨chunks, hcut, hsend⟩ := doSendUnfragmentedData_splits retransmission hrel hmtu (by omega)
    obtain ⟨r, t', hsend⟩ := hsend UdpTransport.openLink
    rw [emittedAll_sent hopen] at hsend
    cases chunks with
    | nil =>
      -- without data the message fits
      have hdata : msg.data = [] := hcut.flatten.symm
      have hr := relHdrSize_le hrel
      have hc := compHdrSize_le msg
      unfold DataMessage.unfragTotalSize commonHdrSize at hfit
      rw [hdata, List.length_nil] at hfit
      omega
    | cons chunk chunks => exact ⟨_, r, t', _, _, hsend, dataHeaderByte_fragment_type msg⟩

/-- Where the header byte stands in what is written: behind the length that `prependLength` writes. -/
def AnyTransport.headerOffset : AnyTransport → Nat
  | .stream .webSocket | .udp _ _ => 0
  | .stream _ => 4

/-- **The compression bits are on the wire.** -/
theorem AnyTransport.sendMessage_header (link : AnyTransport) (reliable : Bool) (msg : DataMessage) :
    ∃ b r written rest datagrams, link.sendMessage .openWorld reliable (.data msg) = some (r, written :: datagrams) ∧
      written.drop link.headerOffset = b :: rest ∧ CompressionType.ofBits (b &&& 0b11) = msg.compType := by
  cases link with
  | stream kind =>
    have hlength : ∀ n : UInt32, (Dbuf.u32.write n).length = 4 := Dbuf.u32.write_length
    refine ⟨dataHeaderByte msg false, .ok (), ?_⟩
    cases kind with
    | webSocket => exact ⟨_, _, [], rfl, rfl, dataHeaderByte_type msg⟩
    | tcp => exact ⟨_, _, [], rfl, List.drop_left' (hlength _), dataHeaderByte_type msg⟩
    | quic => exact ⟨_, _, [], rfl, List.drop_left' (hlength _), dataHeaderByte_type msg⟩
  | udp t mtu =>
    have h8 := (t.relStore.outgoingHeader_spec reliable).1
    unfold sendMessage UdpTransport.sendMessage
    dsimp only
    generalize hrel : (if (t.relStore.outgoingHeader reliable).1.messageId ≠ 0 ∨
      (t.relStore.outgoingHeader reliable).1.ackCount > 0 then some (t.relStore.outgoingHeader reliable).1
        else none) = relHeader
    have hacks : ∀ h ∈ relHeader, h.ackCount ≤ 8 := by
      intro h hmem
      rw [← hrel] at hmem
      split at hmem
      · cases hmem
        exact h8
      · cases hmem
    obtain ⟨b, r, t', datagram, rest, hsend, htype⟩ := @doSendUnfragmentedData_header _
      { t with relStore := (t.relStore.outgoingHeader reliable).2 } { msg with relHeader } false hacks mtu
    refine ⟨b, r, b :: datagram, datagram, rest, ?_, rfl, htype⟩
    change (UdpTransport.doSendUnfragmentedData UdpTransport.openLink _ _ _).map _ = _
    rw [hsend]
    rfl

/-! ## When the header is ignored -/

omit [Dbuf] in
theorem Socket.shrunk_ne_none_iff {lib : CompressionLibraries} {t : SocketTransport} {data : Bytes}
    {type : CompressionType} :
    shrunk lib t data type ≠ .ok none ↔ ∃ answer, chosenAnswer lib t data type = some answer ∧
      ∀ compressed, answer = .ok compressed → compressed.length < (UInt32.ofNat data.length).toNat := by
  unfold shrunk
  rcases chosenAnswer lib t data type with _ | e | compressed
  · simp
  · simp [Except.map]
  · generalize UInt32.ofNat data.length = size
    by_cases hhelps : size.toNat ≤ compressed.length
    · simp [Except.map, hhelps, Nat.not_lt.mpr hhelps]
    · simp [Except.map, hhelps, Nat.lt_of_not_le hhelps]

/-- A message that is left as it came is written with its header. -/
theorem AnyTransport.preset_on_wire (link : AnyTransport) (reliable : Bool) (msg : DataMessage) :
    (link.sendMessage .openWorld reliable (.data { msg with compHeader := none })).map (·.2) ≠
      (link.sendMessage .openWorld reliable (.data { msg with compHeader := some ⟨.lz4, 0⟩ })).map (·.2) := by
  obtain ⟨b, r, written, rest, ds, hsend, hdrop, htype⟩ :=
    link.sendMessage_header reliable { msg with compHeader := none }
  obtain ⟨b', r', written', rest', ds', hsend', hdrop', htype'⟩ :=
    link.sendMessage_header reliable { msg with compHeader := some ⟨.lz4, 0⟩ }
  intro heq
  have hsame : some (written :: ds) = some (written' :: ds') := by
    rw [hsend, hsend'] at heq
    exact heq
  cases hsame
  rw [hdrop] at hdrop'
  cases hdrop'
  rw [htype] at htype'
  cases htype'

/-- **When preset headers are ignored.** Exactly for a message that may be compressed, and that the chosen compressor
makes shorter if it does not fail. -/
theorem presetIgnored_iff (lib : CompressionLibraries) (t : SocketTransport) (link : AnyTransport)
    (reliable uncompressed : Bool) (msg : DataMessage) :
    PresetIgnored lib t link reliable uncompressed msg ↔ uncompressed = false ∧ Replaces lib t msg.data := by
  have hreplaces : (uncompressed = false ∧ Replaces lib t msg.data) ↔
      ∀ type, chosenType lib uncompressed msg.data = some type → shrunk lib t msg.data type ≠ .ok none := by
    unfold chosenType Replaces
    simp only [shrunk_ne_none_iff]
    cases uncompressed with
    | true => simp [chosenAnswer]
    | false => simp
  rw [hreplaces]
  constructor
  · intro h type htype hleft
    apply link.preset_on_wire reliable msg
    have hsame := h .openWorld [] none (some ⟨.lz4, 0⟩)
    simp only [Socket.sendOver_data, htype, Option.bind_some, hleft] at hsame
    exact hsame
  · intro h w tag preset preset'
    simp only [Socket.sendOver_data]
    cases htype : chosenType lib uncompressed msg.data with
    | none => rfl
    | some type =>
      simp only [Option.bind_some]
      rcases hshrunk : shrunk lib t msg.data type with e | _ | ⟨compressed, header⟩
      · rfl
      · exact absurd hshrunk (h type htype)
      · rfl

end

/-- One byte, sent uncompressed over TCP: the preset header is written. -/
theorem presetHeader_written :
    ¬ @PresetIgnored Dbuf.little repeatedLibraries {} (.stream .tcp) false true { data := [7] } := by
  intro h
  exact absurd (h .openWorld [] none (some ⟨.lz4, 5⟩)) (by decide)

end Qunet
