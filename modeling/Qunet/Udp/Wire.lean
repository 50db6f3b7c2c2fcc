import Qunet.Message.Tiling
import Qunet.Udp.Reassembly
import Qunet.Udp.ControlMessages
import Qunet.Udp.Fragmenting

/-!
# What a transport without a connection id puts on the wire

* `encoded_single` : an encoded data message is the only message of its datagram;
* `FromPeer` : a decoded message whose reliability header is that of something the peer has sent;
* `Genuine` : a datagram that is such a message, a fragment of one, or carries control messages only;
* `doSendUnfragmentedData_frame` : what sending does to the transport;
* `doSendUnfragmentedData_genuine` : whatever is lost, what the socket is given of a data message is genuine;
* `control_genuine` : so is what it is given of a control message.
-/

namespace Qunet
open Lib FragmentStore UdpTransport

section
variable [Dbuf]

/-! ## One message in a datagram -/

theorem datagramItems_single {datagram : Bytes} {server : Bool} {m : QunetMessageMeta}
    (h : DecodesTo server datagram m) (hall : m.dataOffset + m.data.length = datagram.length) :
    datagramItems datagram server = [.ok m] := by
  obtain ⟨b, rest, rfl, hdec⟩ := h
  have hfirst : QunetUdpMessageIter.next { data := b :: rest, server } =
      (some (.ok m), { data := b :: rest, server, pos := m.dataOffset + m.data.length }) := by
    unfold QunetUdpMessageIter.next
    rw [if_neg Bool.false_ne_true, List.drop_zero]
    simp only [decide_true, Bool.true_and, hdec, Nat.zero_add]
  have hlast : QunetUdpMessageIter.next { data := b :: rest, server, pos := m.dataOffset + m.data.length } =
      (none, { data := b :: rest, server, pos := m.dataOffset + m.data.length }) := by
    unfold QunetUdpMessageIter.next
    rw [if_neg Bool.false_ne_true]
    dsimp only
    rw [hall, List.drop_length]
  unfold datagramItems QunetUdpMessageIter.itemsFrom
  rw [hfirst]
  dsimp only
  rw [List.length_cons]
  unfold QunetUdpMessageIter.itemsFrom
  rw [hlast]

/-- Without a boundary, and with no more acknowledgements than fit, a data message fills its datagram. -/
theorem decodeMeta_fills {b : UInt8} {rest : Bytes} {server : Bool} {m : QunetMessageMeta}
    (hdec : decodeMeta b rest server = .ok m) (hdata : b &&& msgDataMask ≠ 0) (hbound : b &&& msgDataBoundaryMask = 0)
    (hacks : m.ackCount ≤ 8) : m.dataOffset + m.data.length = (b :: rest).length := by
  obtain ⟨hstart, ⟨hcontrol, -⟩ | ⟨-, hparts⟩⟩ := decodeMeta_ok hdec
  · exact absurd hcontrol hdata
  · generalize hbody : (b :: rest).drop (dataStart server) = body at hparts
    have hlen : body.length = (b :: rest).length - dataStart server := by rw [← hbody, List.length_drop]
    obtain ⟨left, hread⟩ := decodeDataMeta_unbounded hbound hparts
    obtain ⟨header, hsplit, hoffset⟩ := readDataMeta_split hread
    have hsize := congrArg List.length hsplit
    rw [List.length_append] at hsize
    omega

/-- **An encoded data message**, with a fragmentation header `fh` (written as `fb`) or without, is read as the only
message of its datagram. -/
theorem encoded_single {msg : DataMessage} (hcomp : msg.NamesAlgorithm) (connectionId : UInt64)
    (hrel : ∀ h ∈ msg.relHeader, h.ackCount ≤ 8) {frag : Bool} {fb : Bytes}
    {fh : Option FragmentationHeader} (hf : Reads (readOptional frag readFragmentationHeader) fb fh) (payload : Bytes) :
    ∃ rel' offset, Option.Rel SameReliability msg.relHeader rel' ∧
      datagramItems (dataByte msg.compType msg.relHeader.isSome frag ::
          (dataHeaderFields msg connectionId false ++ (fb ++ payload))) (connectionId != 0) =
        [.ok { type := msgData, compressionHeader := decodedComp connectionId msg.compHeader,
               reliabilityHeader := rel', fragmentationHeader := fh, data := payload, dataOffset := offset }] := by
  obtain ⟨hdata, -, -, -, hbound⟩ := dataByte_bits msg.compType msg.relHeader.isSome frag
  obtain ⟨rel', offset, hsame, hdec⟩ := decodeMeta_encoded hcomp connectionId hrel hf payload
  refine ⟨rel', offset, hsame, datagramItems_single ⟨_, _, rfl, hdec⟩ (decodeMeta_fills hdec hdata hbound ?_)⟩
  cases hrel' : msg.relHeader with
  | none =>
    rw [hrel'] at hsame
    cases hsame
    exact Nat.zero_le _
  | some h =>
    rw [hrel'] at hsame
    cases hsame with
    | some hsame =>
      show _ ≤ 8
      rw [QunetMessageMeta.ackCount, Option.elim_some, hsame.ackCount]
      exact hrel h hrel'

/-! ## Fragments -/

/-- What is read of a fragment, with all its fields. -/
theorem fragmentDatagram_single (connectionId : UInt64) {msg : DataMessage} (hcomp : msg.NamesAlgorithm)
    (fragMessageId : UInt16) (hrel : ∀ h ∈ msg.relHeader, h.ackCount ≤ 8) (i : Nat) (last : Bool) (chunk : Bytes) :
    ∃ rel' offset, Option.Rel SameReliability msg.relHeader rel' ∧
      datagramItems (fragmentDatagram connectionId msg fragMessageId i last chunk) (connectionId != 0) =
        [.ok { type := msgData
               compressionHeader := if i = 0 then decodedComp connectionId msg.compHeader else none
               reliabilityHeader := if i = 0 then rel' else none
               fragmentationHeader :=
                 some ⟨fragMessageId, fragmentField i last &&& 0x7FFF, fragmentField i last &&& 0x8000 != 0⟩
               data := chunk, dataOffset := offset }] := by
  have hread := readOptional_some (readFragmentationHeader_reads fragMessageId i last)
  by_cases hi : i = 0
  · subst hi
    obtain ⟨rel', offset, hsame, hitems⟩ := encoded_single hcomp connectionId hrel hread chunk
    refine ⟨rel', offset, hsame, ?_⟩
    rw [if_pos rfl, if_pos rfl, ← hitems, fragmentDatagram_zero]
  · obtain ⟨rel₀, hsame₀, -⟩ := relHeader_reads msg.relHeader hrel
    have hbare : ∀ h ∈ ({ data := msg.data } : DataMessage).relHeader, h.ackCount ≤ 8 := by
      rintro h ⟨⟩
    obtain ⟨rel', offset, hsame, hitems⟩ := encoded_single (namesAlgorithm_of_none rfl) connectionId hbare hread chunk
    refine ⟨rel₀, offset, hsame₀, ?_⟩
    cases hsame
    rw [if_neg hi, if_neg hi, show (none : Option DecodedCompression) = decodedComp connectionId none from rfl, ← hitems,
      ← dataHeaderByte_fragment]
    unfold fragmentDatagram
    rw [show (i != 0) = true from bne_iff_ne.mpr hi, encodeDataHeader_omit]
    unfold encodeDataHeader
    simp

omit [Dbuf] in
theorem isEmpty_eq_last (chunk : Bytes) (chunks : List Bytes) :
    chunks.isEmpty = decide (0 + 1 = (chunk :: chunks).length) := by
  cases chunks <;> simp

theorem mem_fragmentsOf {connectionId : UInt64} {msg : DataMessage} {fragMessageId : UInt16} {i : Nat}
    {chunks : List Bytes} {d : Bytes} (h : d ∈ fragmentsOf connectionId msg fragMessageId i chunks) :
    ∃ j chunk, chunks[j]? = some chunk ∧
      d = fragmentDatagram connectionId msg fragMessageId (i + j) (decide (j + 1 = chunks.length)) chunk := by
  induction chunks generalizing i with
  | nil => cases h
  | cons chunk chunks ih =>
    rcases List.mem_cons.mp h with rfl | h
    · exact ⟨0, chunk, rfl, by rw [isEmpty_eq_last chunk chunks]; rfl⟩
    · obtain ⟨j, chunk', hchunk, rfl⟩ := ih h
      refine ⟨j + 1, chunk', hchunk, ?_⟩
      rw [show i + (j + 1) = i + 1 + j by omega, List.length_cons]
      simp

/-- The receiver reads the fragments of a message as the fragments of one whole. -/
theorem fragments_whole (connectionId : UInt64) {msg : DataMessage} (hcomp : msg.NamesAlgorithm)
    (fragMessageId : UInt16) (hrel : ∀ h ∈ msg.relHeader, h.ackCount ≤ 8) {chunks : List Bytes}
    (hpos : 1 ≤ chunks.length) (hle : chunks.length ≤ 32768) :
    ∃ w : Whole, w.chunks = chunks ∧ w.compressionHeader = decodedComp connectionId msg.compHeader ∧
      Option.Rel SameReliability msg.relHeader w.reliabilityHeader ∧
      ∀ d ∈ fragmentsOf connectionId msg fragMessageId 0 chunks, ∃ m : FragmentMeta,
        datagramItems d (connectionId != 0) = [.ok m.toQunetMessageMeta] ∧ m.type = msgData ∧
          m.header.messageId = fragMessageId ∧ IsFragmentOf w m := by
  obtain ⟨rel', offset, hsame, hfirst⟩ := fragmentDatagram_single connectionId hcomp fragMessageId hrel 0
    (decide (0 + 1 = chunks.length)) (chunks[0])
  refine ⟨⟨chunks, decodedComp connectionId msg.compHeader, rel', hpos, hle⟩, rfl, rfl, hsame, fun d hd => ?_⟩
  obtain ⟨j, chunk, hchunk, rfl⟩ := mem_fragmentsOf hd
  have hj := (List.getElem?_eq_some_iff.mp hchunk).1
  rw [Nat.zero_add]
  have hindex : (fragmentField j (decide (j + 1 = chunks.length)) &&& 0x7FFF).toNat = j := by
    rw [fragmentField_index]
    exact Nat.mod_eq_of_lt (by omega)
  have hlast := fragmentField_last (show j < 32768 by omega) (decide (j + 1 = chunks.length))
  by_cases hj0 : j = 0
  · subst hj0
    obtain ⟨_, hget⟩ := List.getElem?_eq_some_iff.mp hchunk
    rw [hget] at hfirst
    refine ⟨⟨_, _, rfl⟩, hfirst, rfl, rfl, ?_, ?_, ?_, ?_⟩
    · dsimp only
      rw [hindex, hchunk]
    · dsimp only
      rw [hlast, hindex, decide_eq_true_iff]
    · dsimp only
      rw [if_pos rfl, if_pos (UInt16.toNat_inj.mp hindex)]
    · dsimp only
      rw [if_pos rfl, if_pos (UInt16.toNat_inj.mp hindex)]
  · obtain ⟨_, offset', -, hitems⟩ := fragmentDatagram_single connectionId hcomp fragMessageId hrel j
      (decide (j + 1 = chunks.length)) chunk
    have hne : (fragmentField j (decide (j + 1 = chunks.length)) &&& 0x7FFF) ≠ 0 := by
      intro h0
      rw [h0] at hindex
      exact hj0 hindex.symm
    rw [if_neg hj0, if_neg hj0] at hitems
    refine ⟨⟨_, _, rfl⟩, hitems, rfl, rfl, ?_, ?_, ?_, ?_⟩
    · dsimp only
      rw [hindex, hchunk]
    · dsimp only
      rw [hlast, hindex, decide_eq_true_iff]
    · exact (if_neg hne).symm
    · exact (if_neg hne).symm

/-! ## Genuine datagrams -/

/-- The reliability header of the message, if it has one, is that of a message the peer has sent, with its payload. -/
def FromPeer (sent : List ReliableData) (m : QunetMessageMeta) : Prop :=
  ∀ h, m.reliabilityHeader = some h →
    ∃ d ∈ sent, SameReliability d.header h ∧ m.data = d.data ∧
      m.compressionHeader.map (·.toCompressionHeader) = d.compHeader

omit [Dbuf] in
theorem FromPeer.mono {sent sent' : List ReliableData} {m : QunetMessageMeta} (h : FromPeer sent m)
    (hsub : sent ⊆ sent') : FromPeer sent' m := by
  intro hd hrel
  obtain ⟨d, hmem, hd⟩ := h hd hrel
  exact ⟨d, hsub hmem, hd⟩

/-- What a datagram of the peer can be. `wholes` are the messages that it has sent in fragments, by their ids. -/
inductive Genuine (sent : List ReliableData) (wholes : UInt16 → Option Whole) (datagram : Bytes) : Prop where
  | message {m : QunetMessageMeta} (hitems : datagramItems (receiveBuffer datagram) false = [.ok m])
      (hdata : m.type = msgData) (hwhole : m.fragmentationHeader = none) (hfrom : FromPeer sent m)
  | fragment {m : FragmentMeta} {w : Whole}
      (hitems : datagramItems (receiveBuffer datagram) false = [.ok m.toQunetMessageMeta]) (hdata : m.type = msgData)
      (hw : wholes m.header.messageId = some w) (hm : IsFragmentOf w m)
  | control (hitems : ∀ m, .ok m ∈ datagramItems (receiveBuffer datagram) false → m.type ≠ msgData)

theorem Genuine.mono {sent sent' : List ReliableData} {wholes wholes' : UInt16 → Option Whole} {datagram : Bytes}
    (h : Genuine sent wholes datagram) (hsub : sent ⊆ sent')
    (hwholes : ∀ k w, wholes k = some w → wholes' k = some w) : Genuine sent' wholes' datagram := by
  cases h with
  | message hitems hdata hwhole hfrom => exact .message hitems hdata hwhole (hfrom.mono hsub)
  | fragment hitems hdata hw hm => exact .fragment hitems hdata (hwholes _ _ hw) hm
  | control hitems => exact .control hitems

/-! ## Sizes -/

theorem encodeDataHeader_length_le (msg : DataMessage) (connectionId : UInt64)
    (hrel : ∀ h ∈ msg.relHeader, h.ackCount ≤ 8) :
    (encodeDataHeader msg connectionId false).length ≤ commonHdrSize + msg.relHdrSize + msg.compHdrSize := by
  by_cases hid : connectionId = 0
  · have hlonger : (encodeDataHeader msg connectionId false).length ≤ (encodeDataHeader msg 1 false).length := by
      subst hid
      unfold encodeDataHeader dataHeaderFields writeConnectionId
      simp
    exact hlonger.trans (encodeDataHeader_length hrel (by decide)).le
  · exact (encodeDataHeader_length hrel hid).le

theorem fragmentDatagram_length_le {connectionId : UInt64} {msg : DataMessage} {fragMessageId : UInt16}
    (hrel : ∀ h ∈ msg.relHeader, h.ackCount ≤ 8) {i : Nat} {last : Bool} {chunk : Bytes}
    (hchunk : chunk.length ≤ 1187) :
    (fragmentDatagram connectionId msg fragMessageId i last chunk).length ≤ udpMaxAllowedMtu := by
  have hr := relHdrSize_le hrel
  have hc := compHdrSize_le msg
  have hbare : ∀ h ∈ ({ data := msg.data } : DataMessage).relHeader, h.ackCount ≤ 8 := by
    rintro h ⟨⟩
  have hheader : (encodeDataHeader msg connectionId (i != 0)).length ≤ commonHdrSize + 24 := by
    cases hi : i != 0 with
    | false => exact (encodeDataHeader_length_le msg connectionId hrel).trans (by omega)
    | true =>
      rw [encodeDataHeader_omit]
      exact (encodeDataHeader_length_le _ connectionId hbare).trans (show 9 + 0 + 0 ≤ 9 + 24 by omega)
  rw [fragmentDatagram_length]
  unfold commonHdrSize at hheader
  unfold fragHdrSize udpMaxAllowedMtu
  omega

omit [Dbuf] in
theorem receiveBuffer_of_le {datagram : Bytes} (h : datagram.length ≤ udpMaxAllowedMtu) :
    UdpTransport.receiveBuffer datagram = datagram := List.take_of_length_le h

/-! ## What a sent data message puts on the wire -/

omit [Dbuf] in
theorem rememberSent_frame (w : SendWorld) (msg : DataMessage) (retransmission : Bool) (t : UdpTransport) :
    ∃ s, (rememberSent w msg retransmission t).2 = { t with relStore := s } ∧
      (msg.reliableOf retransmission = none → s = t.relStore) := by
  unfold rememberSent
  cases msg.reliableOf retransmission with
  | none => exact ⟨t.relStore, rfl, fun _ => rfl⟩
  | some r => exact ⟨_, rfl, nofun⟩

/-- **Sending** changes the reliable store, if the message is to be remembered, the statistics, and the next fragment
id, if the message does not fit in a datagram. -/
theorem doSendUnfragmentedData_frame {w : SendWorld} {t t' : UdpTransport} {msg : DataMessage} {retransmission : Bool}
    {r : Except TransportError Unit} {out : List Bytes}
    (h : t.doSendUnfragmentedData w msg retransmission = some (r, out, t')) :
    ∃ s tracker, t' = { t with
        relStore := s, tracker
        fragStore := { t.fragStore with
          nextId := if msg.unfragTotalSize ≤ t.mtu then t.fragStore.nextId else t.fragStore.nextId + 1 } } ∧
      (msg.reliableOf retransmission = none → s = t.relStore) := by
  unfold doSendUnfragmentedData at h
  split at h
  · next hfit =>
    rw [if_pos hfit]
    have h' := Option.some.inj h
    unfold sendUnfragmented at h'
    dsimp only at h'
    obtain ⟨s, hs, hforget⟩ := rememberSent_frame w msg retransmission t
    cases hl : w.link 0 with
    | failed e =>
      rw [hl] at h'
      cases h'
      exact ⟨t.relStore, t.tracker, rfl, fun _ => rfl⟩
    | _ =>
      rw [hl] at h'
      rcases hrem : rememberSent w msg retransmission t with ⟨e | ⟨⟩, t₁⟩
      · rw [hrem] at h' hs
        cases h'
        exact ⟨s, t.tracker, hs, hforget⟩
      · rw [hrem] at h' hs
        change t₁ = _ at hs
        subst hs
        cases h'
        exact ⟨s, _, rfl, hforget⟩
  · next hfit =>
    rw [if_neg hfit]
    dsimp only at h
    split at h
    · cases h
    · cases h
      exact ⟨t.relStore, _, rfl, fun _ => rfl⟩
    · next tracker _ =>
      cases h
      obtain ⟨s, hs, hforget⟩ := rememberSent_frame w msg retransmission
        { t with fragStore := t.fragStore.nextMessageId.2, tracker }
      exact ⟨s, tracker, hs, hforget⟩

omit [Dbuf] in
theorem mem_of_mem_emittedAll {link : Nat → LinkOutcome} {i : Nat} {ds : List Bytes} {d : Bytes}
    (h : d ∈ emittedAll link i ds) : d ∈ ds := by
  induction ds generalizing i with
  | nil => exact h
  | cons d' ds ih =>
    unfold emittedAll at h
    cases hl : link i with
    | failed e =>
      rw [hl] at h
      cases h
    | lost =>
      rw [hl] at h
      exact List.mem_cons_of_mem _ (ih h)
    | sent =>
      rw [hl] at h
      rcases List.mem_cons.mp h with rfl | h
      · exact List.mem_cons_self
      · exact List.mem_cons_of_mem _ (ih h)

/-- The message was sent under this header. -/
def Announced (sent : List ReliableData) (msg : DataMessage) : Prop :=
  ∀ h, msg.relHeader = some h → ∃ d ∈ sent, d.header = h ∧ d.data = msg.data ∧ d.compHeader = msg.compHeader

omit [Dbuf] in
theorem Announced.fromPeer {sent : List ReliableData} {msg : DataMessage} (h : Announced sent msg)
    {m : QunetMessageMeta} (hrel : Option.Rel SameReliability msg.relHeader m.reliabilityHeader)
    (hdata : m.data = msg.data) (hcomp : m.compressionHeader.map (·.toCompressionHeader) = msg.compHeader) :
    FromPeer sent m := by
  intro hd hm
  rw [hm] at hrel
  cases hsent : msg.relHeader with
  | none =>
    rw [hsent] at hrel
    cases hrel
  | some h₀ =>
    rw [hsent] at hrel
    cases hrel with
    | some hsame =>
      obtain ⟨d, hmem, rfl, hd, hc⟩ := h h₀ hsent
      exact ⟨d, hmem, hsame, hdata.trans hd.symm, hcomp.trans hc.symm⟩

/-- Without a connection id the uncompressed size is read where it was written. -/
theorem decodedComp_zero {msg : DataMessage} (hcomp : msg.NamesAlgorithm) :
    (decodedComp 0 msg.compHeader).map (·.toCompressionHeader) = msg.compHeader :=
  (decodedComp_eq_iff 0 hcomp).mpr fun _ _ hne => absurd rfl hne

/-- A message that fits is read as it was sent. -/
theorem unfragmented_genuine {sent : List ReliableData} {wholes : UInt16 → Option Whole} {msg : DataMessage}
    (hcomp : msg.NamesAlgorithm) (hrel : ∀ h ∈ msg.relHeader, h.ackCount ≤ 8) (hsent : Announced sent msg)
    (hfit : msg.unfragTotalSize ≤ 1200) :
    Genuine sent wholes (encodeDataHeader msg 0 false ++ msg.data) := by
  have hsize : (encodeDataHeader msg 0 false ++ msg.data).length ≤ udpMaxAllowedMtu := by
    have hheader := encodeDataHeader_length_le msg 0 hrel
    rw [List.length_append]
    unfold DataMessage.unfragTotalSize at hfit
    unfold udpMaxAllowedMtu
    omega
  obtain ⟨rel', offset, hsame, hitems⟩ :=
    encoded_single hcomp 0 hrel (readOptional_none readFragmentationHeader) msg.data
  rw [← dataHeaderByte_eq] at hitems
  refine .message (by rw [receiveBuffer_of_le hsize]; exact hitems) rfl rfl ?_
  exact hsent.fromPeer hsame rfl (decodedComp_zero hcomp)

/-- **Whatever becomes of its datagrams**, all that the socket is given of a data message is genuine. A message that does
not fit takes the next fragment id. -/
theorem doSendUnfragmentedData_genuine {sent : List ReliableData} (wholes : UInt16 → Option Whole) {w : SendWorld}
    {t t' : UdpTransport} {msg : DataMessage} {retransmission : Bool} {r : Except TransportError Unit}
    {out : List Bytes} (hid : t.connectionId = 0) (hmtu : t.mtu = 1200) (hcomp : msg.NamesAlgorithm)
    (hrel : ∀ h ∈ msg.relHeader, h.ackCount ≤ 8) (hsmall : msg.data.length ≤ 32767 * 1187) (hsent : Announced sent msg)
    (h : t.doSendUnfragmentedData w msg retransmission = some (r, out, t')) :
    (t'.fragStore.nextId = t.fragStore.nextId ∧ ∀ d ∈ out, Genuine sent wholes d) ∨
      ∃ whole : Whole, t'.fragStore.nextId = t.fragStore.nextId + 1 ∧ FromPeer sent whole.assembled ∧
        ∀ d ∈ out, Genuine sent (Function.update wholes t.fragStore.nextId (some whole)) d := by
  obtain ⟨s, tracker, rfl, -⟩ := doSendUnfragmentedData_frame h
  by_cases hfit : msg.unfragTotalSize ≤ t.mtu
  · left
    refine ⟨if_pos hfit, fun d hd => ?_⟩
    obtain ⟨r', t₁, hsend⟩ := doSendUnfragmentedData_fits retransmission hfit w
    rw [h] at hsend
    cases hsend
    rw [List.mem_singleton.mp (mem_of_mem_emittedAll hd), hid]
    exact unfragmented_genuine hcomp hrel hsent (hmtu ▸ hfit)
  · right
    have hbig : 1200 < msg.unfragTotalSize := by omega
    obtain ⟨chunks, hcut, hsend⟩ := doSendUnfragmentedData_splits retransmission hrel hmtu hbig
    obtain ⟨r', t₁, hsend⟩ := hsend w
    rw [h] at hsend
    cases hsend
    have hr := relHdrSize_le hrel
    have hc := compHdrSize_le msg
    have hpos : 1 ≤ chunks.length := by
      rw [Nat.one_le_iff_ne_zero, Ne, List.length_eq_zero_iff, hcut.eq_nil_iff]
      exact data_ne_nil hrel hbig
    have hle : chunks.length ≤ 32768 := by
      rw [hcut.length_le_iff, sum_payloadSizes, firstPayloadSize_eq hrel, restPayloadSize_eq]
      omega
    obtain ⟨whole, hchunks, hwhole, hsame, hread⟩ := fragments_whole 0 hcomp t.fragStore.nextId hrel hpos hle
    refine ⟨whole, if_neg hfit, ?_, fun d hd => ?_⟩
    · refine hsent.fromPeer hsame ?_ ?_
      · show whole.chunks.flatten = msg.data
        rw [hchunks, hcut.flatten]
      · show whole.compressionHeader.map (·.toCompressionHeader) = msg.compHeader
        rw [hwhole, decodedComp_zero hcomp]
    · have hd := mem_of_mem_emittedAll hd
      rw [hid] at hd
      obtain ⟨m, hitems, hdata, hk, hm⟩ := hread d hd
      have hsize : d.length ≤ udpMaxAllowedMtu := by
        obtain ⟨j, chunk, hchunk, rfl⟩ := mem_fragmentsOf hd
        have hchunk := hcut.part_length_le hchunk
        rw [firstPayloadSize_eq hrel, restPayloadSize_eq] at hchunk
        refine fragmentDatagram_length_le hrel (hchunk.trans ?_)
        unfold payloadSizes
        split <;> omega
      refine .fragment (w := whole) (by rw [receiveBuffer_of_le hsize]; exact hitems) hdata ?_ hm
      rw [hk, Function.update_self]

/-! ## Control messages -/

theorem encode_length_le {m : QunetMessage} {payload : Bytes} (hencode : m.encode = some payload)
    (hcontrol : m.isControl = true) (hconn : m.isConnectionControl = false) : payload.length ≤ 22 := by
  cases m <;> simp only [QunetMessage.encode, QunetMessage.isControl, QunetMessage.isConnectionControl,
    Option.some.injEq, reduceCtorEq] at hencode hcontrol hconn
  case keepalive m =>
    subst hencode
    simp [KeepaliveMessage.encode]
  case handshakeStart m =>
    subst hencode
    simp [HandshakeStartMessage.encode]
  case clientClose =>
    subst hencode
    simp [ClientCloseMessage.encode]
  case clientReconnect m =>
    subst hencode
    simp [ClientReconnectMessage.encode]
  case connectionError m =>
    subst hencode
    simp [ConnectionErrorMessage.encode]

omit [Dbuf] in
theorem padMessageToMinimum_length_le (w : SendWorld) {written : Bytes} (h : written.length ≤ 31) :
    (padMessageToMinimum w written).length ≤ 31 := by
  unfold padMessageToMinimum minimumUdpPayload
  split
  · rw [List.length_append, List.length_cons, List.length_map, List.length_range]
    omega
  · exact h

/-- Connection control messages apart, nothing in the datagram of a control message is read as a data message. -/
theorem control_genuine {sent : List ReliableData} {wholes : UInt16 → Option Whole} {m : QunetMessage}
    {encoded : Bytes} (w : SendWorld) (hencoded : m.encodeControlMsg 0 = some encoded) (hcontrol : m.isControl = true)
    (hconn : m.isConnectionControl = false) : Genuine sent wholes (padMessageToMinimum w encoded) := by
  unfold QunetMessage.encodeControlMsg at hencoded
  obtain ⟨headerByte, hbyte, hencoded⟩ := Option.bind_eq_some_iff.mp hencoded
  obtain ⟨payload, hencode, hencoded⟩ := Option.bind_eq_some_iff.mp hencoded
  cases hencoded
  have hfixed := fixedLength hbyte hencode hcontrol hconn
  have hlength := encode_length_le hencode hcontrol hconn
  have hsize : (padMessageToMinimum w (encodeControlHeader headerByte 0 ++ payload)).length ≤ 31 := by
    refine padMessageToMinimum_length_le w ?_
    rw [List.length_append]
    exact Nat.add_le_add (show 1 ≤ 9 by omega) hlength
  obtain ⟨pad, hpad, hkind⟩ := padMessageToMinimum_eq w (encodeControlHeader headerByte 0 ++ payload)
  have hitems : datagramItems (padMessageToMinimum w (encodeControlHeader headerByte 0 ++ payload)) false =
      .ok (controlMeta headerByte payload (dataStart false)) :: paddingItems pad := by
    rw [hpad, encodeControlHeader, List.cons_append, List.cons_append, List.append_assoc]
    exact datagramItems_padded hfixed 0 hkind
  refine .control fun m hm => ?_
  rw [receiveBuffer_of_le (hsize.trans (by decide)), hitems] at hm
  rcases List.mem_cons.mp hm with hm | hm
  · cases hm
    rintro rfl
    exact absurd hfixed.control (by decide)
  · rcases paddingItems_eq pad with hnone | ⟨p, hp, htype⟩
    · rw [hnone] at hm
      cases hm
    · rw [hp] at hm
      cases List.mem_singleton.mp hm
      rw [htype]
      decide

end

end Qunet
