import Qunet.Message.QunetMessage

/-!
# What `decodeMeta` reads back

* `next_advances` : every message moves the datagram iterator;
* `SameReliability` : two reliability headers with the same id and the same acknowledgements;
* `NamesAlgorithm` : a message whose compression header, if it has one, shows in the header byte;
* `decodeMeta_encoded` : the meta that `decodeMeta` reads from such a message when it is encoded, with or without a
  fragmentation header. The one field that may differ from what was written is the uncompressed size
  (`decodedSize`): the encoder puts it in front of the connection id, the decoder looks for it behind.
-/

namespace Qunet
open Lib

variable [Dbuf]

/-! ## The parts of `decodeMeta` -/

section
variable {msgType : UInt8} {start : Nat} {body rest : Bytes} {udpConnId : Bool} {m : QunetMessageMeta}

theorem decodeControlMeta_ok (h : decodeControlMeta msgType start body = .ok m) :
    ∃ dataSize left, lengthForNonDataMessage msgType body = .ok (dataSize, left) ∧ dataSize ≤ body.length ∧
      m.type = msgType ∧ m.data = body.take dataSize ∧ m.dataOffset = start := by
  unfold decodeControlMeta at h
  split at h
  · cases h
  · next dataSize left hlength =>
    split at h
    · cases h
    · next hsize =>
      cases h
      exact ⟨dataSize, left, hlength, not_lt.mp hsize, rfl, rfl, rfl⟩

theorem readDataMeta_ok {boundary : Option UInt16} (h : readDataMeta msgType start body = .ok ((m, boundary), rest)) :
    m.type = msgData ∧ start ≤ m.dataOffset := by
  unfold readDataMeta at h
  obtain ⟨_, _, _, h⟩ := Reader.bind_ok h
  obtain ⟨_, _, _, h⟩ := Reader.bind_ok h
  obtain ⟨_, _, _, h⟩ := Reader.bind_ok h
  obtain ⟨_, _, _, h⟩ := Reader.bind_ok h
  obtain ⟨_, _, _, h⟩ := Reader.bind_ok h
  rw [Reader.run_pure] at h
  cases h
  refine ⟨rfl, ?_⟩
  dsimp only
  omega

/-- A boundary cuts the data off. -/
theorem decodeDataMeta_ok (h : decodeDataMeta msgType start body = .ok m) :
    ∃ m₀ boundary left n, readDataMeta msgType start body = .ok ((m₀, boundary), left) ∧
      m = { m₀ with data := m₀.data.take n } := by
  unfold decodeDataMeta at h
  split at h
  · cases h
  · next m₀ left hread =>
    cases h
    exact ⟨_, none, left, _, hread, by rw [List.take_length]⟩
  · next m₀ boundary left hread =>
    split at h
    · cases h
    · cases h
      exact ⟨m₀, some boundary, left, boundary.toNat, hread, rfl⟩

/-- Without a boundary the data is all that is left. -/
theorem decodeDataMeta_unbounded (hb : msgType &&& msgDataBoundaryMask = 0)
    (h : decodeDataMeta msgType start body = .ok m) :
    ∃ left, readDataMeta msgType start body = .ok ((m, none), left) := by
  unfold decodeDataMeta at h
  split at h
  · cases h
  · next m₀ left hread =>
    cases h
    exact ⟨left, hread⟩
  · next m₀ boundary left hread =>
    unfold readDataMeta at hread
    obtain ⟨_, _, _, hread⟩ := Reader.bind_ok hread
    obtain ⟨_, _, _, hread⟩ := Reader.bind_ok hread
    obtain ⟨_, _, _, hread⟩ := Reader.bind_ok hread
    obtain ⟨bound, _, hbound, hread⟩ := Reader.bind_ok hread
    rw [hb] at hbound
    cases hbound
    obtain ⟨_, _, _, hread⟩ := Reader.bind_ok hread
    cases hread

theorem decodeMeta_ok (h : decodeMeta msgType rest udpConnId = .ok m) :
    dataStart udpConnId ≤ (msgType :: rest).length ∧
      (msgType &&& msgDataMask = 0 ∧
          decodeControlMeta msgType (dataStart udpConnId) ((msgType :: rest).drop (dataStart udpConnId)) = .ok m ∨
        msgType &&& msgDataMask ≠ 0 ∧
          decodeDataMeta msgType (dataStart udpConnId) ((msgType :: rest).drop (dataStart udpConnId)) = .ok m) := by
  unfold decodeMeta at h
  dsimp only at h
  split at h
  · cases h
  · next hstart =>
    refine ⟨not_lt.mp hstart, ?_⟩
    split at h
    · next hcontrol => exact Or.inl ⟨hcontrol, h⟩
    · next hdata => exact Or.inr ⟨hdata, h⟩

end

/-! ## The iterator -/

theorem decodeMeta_offset_pos {msgType : UInt8} {rest : Bytes} {udpConnId : Bool} {m : QunetMessageMeta}
    (h : decodeMeta msgType rest udpConnId = .ok m) : 0 < m.dataOffset := by
  have hstart : 0 < dataStart udpConnId := by cases udpConnId <;> decide
  obtain ⟨-, ⟨-, hcontrol⟩ | ⟨-, hdata⟩⟩ := decodeMeta_ok h
  · obtain ⟨_, _, -, -, -, -, hoffset⟩ := decodeControlMeta_ok hcontrol
    rwa [hoffset]
  · obtain ⟨m₀, _, _, _, hread, rfl⟩ := decodeDataMeta_ok hdata
    exact lt_of_lt_of_le hstart (readDataMeta_ok hread).2

/-- A message that `next` returns moves the iterator by at least one byte. -/
theorem QunetUdpMessageIter.next_advances {it it' : QunetUdpMessageIter} {m : QunetMessageMeta}
    (h : it.next = (some (.ok m), it')) : it.pos < it'.pos ∧ it.pos < it.data.length ∧ it'.data = it.data := by
  unfold next at h
  split at h
  · cases h
  · split at h
    · cases h
    · next b rest hdrop =>
      have hlt : it.pos < it.data.length := by
        by_contra hge
        rw [List.drop_eq_nil_of_le (by omega)] at hdrop
        cases hdrop
      split at h
      · cases h
      · next m' hm =>
        have hpos := decodeMeta_offset_pos hm
        cases h
        exact ⟨by dsimp only; omega, hlt, rfl⟩

/-- More fuel than unread bytes changes nothing. -/
theorem QunetUdpMessageIter.itemsFrom_fuel (fuel : Nat) (it : QunetUdpMessageIter)
    (h : it.data.length - it.pos < fuel) (more : Nat) : itemsFrom (fuel + more) it = itemsFrom fuel it := by
  induction fuel generalizing it with
  | zero => exact absurd h (Nat.not_lt_zero _)
  | succ fuel ih =>
    rw [show fuel + 1 + more = (fuel + more) + 1 by omega]
    unfold itemsFrom
    split
    · rfl
    · rfl
    · next m it' hn =>
      obtain ⟨h1, h2, h3⟩ := next_advances hn
      rw [ih it' (by rw [h3]; omega)]

/-! ## The reliability header -/

/-- The same id and the same acknowledgements: entries of `acks` past `ackCount` mean nothing. -/
structure SameReliability (h h' : ReliabilityHeader) : Prop where
  messageId : h'.messageId = h.messageId
  ackCount : h'.ackCount = h.ackCount
  acks : h'.ackList = h.ackList

theorem readAcks_reads (l : List UInt16) (i : Nat) (acks : Vector UInt16 8) (hi : i + l.length ≤ 8) :
    ∃ acks', Reads (readAcks (List.range' i l.length) acks) (l.flatMap Dbuf.u16.write) acks' ∧
      acks'.toList.take (i + l.length) = acks.toList.take i ++ l := by
  induction l generalizing i acks with
  | nil => exact ⟨acks, Reads.pure acks, by simp⟩
  | cons a l ih =>
    rw [List.length_cons] at hi
    obtain ⟨acks', hr, ht⟩ := ih (i + 1) (acks.setIfInBounds i a) (by omega)
    refine ⟨acks', ?_, ?_⟩
    · rw [List.length_cons, List.range'_succ, List.flatMap_cons]
      exact (Dbuf.u16.reads _ a).bind hr
    · have hset : (acks.setIfInBounds i a).toList.take (i + 1) = acks.toList.take i ++ [a] := by
        rw [Vector.toList_setIfInBounds, List.take_add_one, List.take_set_of_le (Nat.le_refl i),
          List.getElem?_set_self (by rw [Vector.length_toList]; omega)]
        rfl
      rw [List.length_cons, show i + (l.length + 1) = i + 1 + l.length by omega, ht, hset, List.append_assoc]
      rfl

theorem readReliabilityHeader_reads (h : ReliabilityHeader) (hc : h.ackCount ≤ 8) :
    ∃ h', Reads readReliabilityHeader (writeReliabilityHeader h) h' ∧ SameReliability h h' := by
  have hlen : h.ackList.length = h.ackCount := by rw [h.ackList_length]; omega
  have hcount : (UInt16.ofNat h.ackCount).toNat = h.ackCount := by
    rw [UInt16.toNat_ofNat']; omega
  obtain ⟨acks, hr, ht⟩ := readAcks_reads h.ackList 0 (Vector.replicate 8 0) (by omega)
  refine ⟨⟨h.messageId, h.ackCount, acks⟩, ?_, ⟨rfl, rfl, ?_⟩⟩
  · unfold readReliabilityHeader writeReliabilityHeader
    rw [List.append_assoc]
    refine (Dbuf.u16.reads _ h.messageId).bind ((Dbuf.u16.reads _ _).bind ?_)
    dsimp only
    rw [hcount, show decodeAckIndices h.ackCount = List.range' 0 h.ackList.length by
      rw [decodeAckIndices, List.range_eq_range', hlen, Nat.min_eq_left hc]]
    exact hr.bind_pure fun acks => (⟨h.messageId, h.ackCount, acks⟩ : ReliabilityHeader)
  · rw [hlen, Nat.zero_add, List.take_zero, List.nil_append] at ht
    exact ht

/-! ## The header byte -/

/-- A data header byte with the given optional parts and no boundary. -/
def dataByte (t : CompressionType) (rel frag : Bool) : UInt8 :=
  (msgData ||| t.bits ||| if rel then msgDataReliabilityMask else 0) ||| if frag then msgDataFragmentationMask else 0

omit [Dbuf] in
theorem dataByte_bits (t : CompressionType) (rel frag : Bool) :
    dataByte t rel frag &&& msgDataMask ≠ 0 ∧ CompressionType.ofBits (dataByte t rel frag &&& 0b11) = t ∧
      (dataByte t rel frag &&& msgDataReliabilityMask ≠ 0 ↔ rel = true) ∧
      (dataByte t rel frag &&& msgDataFragmentationMask ≠ 0 ↔ frag = true) ∧
      dataByte t rel frag &&& msgDataBoundaryMask = 0 := by
  cases t <;> cases rel <;> cases frag <;> decide

/-- The compression type that the header byte of `msg` carries. -/
def DataMessage.compType (msg : DataMessage) : CompressionType := msg.compHeader.elim .none (·.type)

/-- A compression header, if there is one, has one of the three types that the header byte tells from no header. -/
def DataMessage.NamesAlgorithm (msg : DataMessage) : Prop := ∀ c ∈ msg.compHeader, c.type ≠ .none

omit [Dbuf] in
theorem namesAlgorithm_of_none {msg : DataMessage} (h : msg.compHeader = none) : msg.NamesAlgorithm := by
  intro c hc
  rw [h] at hc
  cases hc

omit [Dbuf] in
theorem dataHeaderByte_eq (msg : DataMessage) :
    dataHeaderByte msg false = dataByte msg.compType msg.relHeader.isSome false := by
  obtain ⟨data, comp, rel⟩ := msg
  cases comp <;> cases rel <;> simp [dataHeaderByte, dataByte, DataMessage.compType, CompressionType.bits]

/-- Leaving the headers out is encoding a message without headers. -/
theorem encodeDataHeader_omit (msg : DataMessage) (connectionId : UInt64) :
    encodeDataHeader msg connectionId true = encodeDataHeader { data := msg.data } connectionId false := by
  simp [encodeDataHeader, dataHeaderByte, dataHeaderFields]

/-! ## Reading an encoded data message -/

omit [Dbuf] in
theorem readOptional_some {α : Type} {r : DecodeReader α} {bs : Bytes} {a : α} (h : Reads r bs a) :
    Reads (readOptional true r) bs (some a) := h.map some

omit [Dbuf] in
theorem readOptional_none {α : Type} (r : DecodeReader α) : Reads (readOptional false r) [] none := Reads.pure none

/-- The parts of a data message, read in the decoder's order. -/
theorem readDataMeta_parts {msgType : UInt8} (start : Nat) {cb rb fb : Bytes} {comp : Option DecodedCompression}
    {rel : Option ReliabilityHeader} {frag : Option FragmentationHeader} (payload : Bytes)
    (hc : Reads (readCompressionHeader (.ofBits (msgType &&& 0b11))) cb comp)
    (hr : Reads (readOptional (msgType &&& msgDataReliabilityMask != 0) readReliabilityHeader) rb rel)
    (hf : Reads (readOptional (msgType &&& msgDataFragmentationMask != 0) readFragmentationHeader) fb frag)
    (hb : msgType &&& msgDataBoundaryMask = 0) :
    ∃ offset, decodeDataMeta msgType start (cb ++ (rb ++ (fb ++ payload))) =
      .ok { type := msgData, compressionHeader := comp, reliabilityHeader := rel, fragmentationHeader := frag,
            data := payload, dataOffset := offset } := by
  have hread : ∃ offset, readDataMeta msgType start (cb ++ (rb ++ (fb ++ payload))) =
      .ok (({ type := msgData, compressionHeader := comp, reliabilityHeader := rel, fragmentationHeader := frag,
              data := payload, dataOffset := offset }, none), []) := by
    refine ⟨start + (if comp.isSome then 4 else 0) + rel.elim 0 (fun h => 4 + h.ackCount * 2)
      + (if frag.isSome then 4 else 0) + 0, ?_⟩
    unfold readDataMeta
    rw [Reader.run_bind, hc]
    dsimp only
    rw [Reader.run_bind, hr]
    dsimp only
    rw [Reader.run_bind, hf]
    dsimp only
    rw [hb]
    rfl
  obtain ⟨offset, hread⟩ := hread
  exact ⟨offset, by rw [decodeDataMeta, hread]⟩

/-- The uncompressed size that the decoder sees: behind the connection id, the last half of the encoded id. -/
def decodedSize (connectionId : UInt64) (size : UInt32) : UInt32 :=
  if connectionId = 0 then size else Dbuf.u32.read ((Dbuf.u64.write connectionId).drop 4)

/-- The compression header that the decoder sees; it sees none if the type is `None`. -/
def decodedComp (connectionId : UInt64) (comp : Option CompressionHeader) : Option DecodedCompression :=
  comp.bind fun c =>
    if h : c.type ≠ .none then
      some { type := c.type, uncompressedSize := decodedSize connectionId c.uncompressedSize, type_ne_none := h }
    else none

/-- The four bytes that the decoder takes for the uncompressed size. -/
def sizeCode (connectionId : UInt64) (comp : Option CompressionHeader) : Bytes :=
  comp.elim [] fun c =>
    if connectionId = 0 then Dbuf.u32.write c.uncompressedSize else (Dbuf.u64.write connectionId).drop 4

theorem sizeCode_length (connectionId : UInt64) (c : CompressionHeader) :
    (sizeCode connectionId (some c)).length = 4 := by
  simp only [sizeCode, Option.elim_some]
  split
  · exact Dbuf.u32.write_length _
  · rw [List.length_drop, Dbuf.u64.write_length]

theorem sizeCode_reads (connectionId : UInt64) {msg : DataMessage} (hcomp : msg.NamesAlgorithm) :
    Reads (readCompressionHeader msg.compType) (sizeCode connectionId msg.compHeader)
      (decodedComp connectionId msg.compHeader) := by
  obtain ⟨data, comp, rel⟩ := msg
  cases comp with
  | none => exact Reads.pure none
  | some c =>
    have hread : Reads readU32 (sizeCode connectionId (some c)) (decodedSize connectionId c.uncompressedSize) := by
      simp only [sizeCode, decodedSize, Option.elim_some]
      split
      · exact Dbuf.u32.reads _ _
      · exact Dbuf.u32.reads_code _ (by simp)
    have htype : c.type ≠ .none := hcomp c rfl
    have := hread.bind_pure fun size =>
      some ({ type := c.type, uncompressedSize := size, type_ne_none := htype } : DecodedCompression)
    simpa [readCompressionHeader, DataMessage.compType, decodedComp, htype] using this

/-- Behind the header byte and the connection id the decoder finds the size, the reliability header and the rest. -/
theorem dataHeaderFields_body (b : UInt8) (msg : DataMessage) (connectionId : UInt64) (rest : Bytes) :
    (b :: (dataHeaderFields msg connectionId false ++ rest)).drop (dataStart (connectionId != 0)) =
      sizeCode connectionId msg.compHeader ++ (msg.relHeader.elim [] writeReliabilityHeader ++ rest) := by
  obtain ⟨data, comp, rel⟩ := msg
  by_cases hz : connectionId = 0
  · subst hz
    cases comp <;> simp [dataHeaderFields, dataStart, sizeCode, writeConnectionId]
  · have h8 : (Dbuf.u64.write connectionId).length = 8 := Dbuf.u64.write_length _
    have hd : dataStart (connectionId != 0) = 9 := by simp [dataStart, hz]
    rw [hd, List.drop_succ_cons]
    cases comp with
    | none => simp [dataHeaderFields, sizeCode, writeConnectionId, hz, h8]
    | some c => simp [dataHeaderFields, sizeCode, writeConnectionId, hz, List.drop_append, h8]

theorem relHeader_reads (rel : Option ReliabilityHeader) (hrel : ∀ h ∈ rel, h.ackCount ≤ 8) :
    ∃ rel', Option.Rel SameReliability rel rel' ∧
      Reads (readOptional rel.isSome readReliabilityHeader) (rel.elim [] writeReliabilityHeader) rel' := by
  cases rel with
  | none => exact ⟨none, .none, readOptional_none _⟩
  | some h =>
    obtain ⟨h', hr, hs⟩ := readReliabilityHeader_reads h (hrel h rfl)
    exact ⟨some h', .some hs, readOptional_some hr⟩

/-- **The decoder on an encoded data message**, with a fragmentation header `fh` (written as `fb`) or without. -/
theorem decodeMeta_encoded {msg : DataMessage} (hcomp : msg.NamesAlgorithm) (connectionId : UInt64)
    (hrel : ∀ h ∈ msg.relHeader, h.ackCount ≤ 8) {frag : Bool} {fb : Bytes} {fh : Option FragmentationHeader}
    (hf : Reads (readOptional frag readFragmentationHeader) fb fh) (payload : Bytes) :
    ∃ rel' offset, Option.Rel SameReliability msg.relHeader rel' ∧
      decodeMeta (dataByte msg.compType msg.relHeader.isSome frag)
          (dataHeaderFields msg connectionId false ++ (fb ++ payload)) (connectionId != 0) =
        .ok { type := msgData, compressionHeader := decodedComp connectionId msg.compHeader,
              reliabilityHeader := rel', fragmentationHeader := fh, data := payload, dataOffset := offset } := by
  obtain ⟨hdata, htype, hrelBit, hfragBit, hbound⟩ := dataByte_bits msg.compType msg.relHeader.isSome frag
  generalize hb : dataByte msg.compType msg.relHeader.isSome frag = b at *
  obtain ⟨rel', hsame, hr⟩ := relHeader_reads msg.relHeader hrel
  have hr' : (b &&& msgDataReliabilityMask != 0) = msg.relHeader.isSome := by
    rw [Bool.eq_iff_iff, bne_iff_ne]; exact hrelBit
  have hf' : (b &&& msgDataFragmentationMask != 0) = frag := by
    rw [Bool.eq_iff_iff, bne_iff_ne]; exact hfragBit
  obtain ⟨offset, hread⟩ := readDataMeta_parts (dataStart (connectionId != 0)) payload
    (htype ▸ sizeCode_reads connectionId hcomp) (hr' ▸ hr) (hf' ▸ hf) hbound
  refine ⟨rel', offset, hsame, ?_⟩
  have hlen : ¬ (b :: (dataHeaderFields msg connectionId false ++ (fb ++ payload))).length <
      dataStart (connectionId != 0) := by
    by_cases hz : connectionId = 0
    · simp [dataStart, hz]
    · have h8 : (Dbuf.u64.write connectionId).length = 8 := Dbuf.u64.write_length _
      simp only [dataStart, dataHeaderFields, writeConnectionId, hz, bne_iff_ne, ne_eq, not_false_eq_true, if_true,
        Bool.false_eq_true, if_false, List.length_cons, List.length_append, h8]
      omega
  unfold decodeMeta
  dsimp only
  rw [if_neg hlen, if_neg hdata, dataHeaderFields_body, hread]

/-- Without a fragmentation header. -/
theorem decodeMeta_unfragmented {msg : DataMessage} (hcomp : msg.NamesAlgorithm) (connectionId : UInt64)
    (hrel : ∀ h ∈ msg.relHeader, h.ackCount ≤ 8) :
    ∃ rel' offset, Option.Rel SameReliability msg.relHeader rel' ∧
      decodeMeta (dataHeaderByte msg false) (dataHeaderFields msg connectionId false ++ msg.data) (connectionId != 0) =
        .ok { type := msgData, compressionHeader := decodedComp connectionId msg.compHeader,
              reliabilityHeader := rel', fragmentationHeader := none, data := msg.data, dataOffset := offset } := by
  rw [dataHeaderByte_eq]
  exact decodeMeta_encoded hcomp connectionId hrel (readOptional_none readFragmentationHeader) msg.data

end Qunet
