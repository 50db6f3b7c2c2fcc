import Qunet.Udp.Sending
import Qunet.Message.Tiling

/-!
# The fragments of a message

* `encodeDataHeader_length` : what the encoder writes is what the size arithmetic predicts;
* `fragmentField_index`, `fragmentField_last` : the index and the mark of the last fragment as `decodeMeta` reads them;
* `IsSplit` : datagrams within the limit that the receiver reads as the fragments of a message;
* `fragmentsOf_decodes` : what the receiver reads of the fragments;
* `IsSplit.namesAlgorithm` : behind a compression header of type `None` the receiver looks for the chunk in the wrong
  place;
* **`fragments_isSplit_iff`** : the fragments are a split of the message exactly if its compression header is not of
  type `None` and there are at most 32768 of them.
-/

namespace Qunet
open Lib

/-! ## The field of the index -/

/-- The mark of the last fragment, as a number. -/
def lastMark (last : Bool) : Nat := if last then 2 ^ 15 else 0

theorem fragmentField_toNat (i : Nat) (last : Bool) : (fragmentField i last).toNat = (i ||| lastMark last) % 2 ^ 16 :=
  UInt16.toNat_ofNat' ..

/-- The low 15 bits. -/
theorem fragmentField_index (i : Nat) (last : Bool) : (fragmentField i last &&& 0x7FFF).toNat = i % 32768 := by
  have hmark : lastMark last % 2 ^ 15 = 0 := by cases last <;> rfl
  rw [UInt16.toNat_and, fragmentField_toNat, show (0x7FFF : UInt16).toNat = 2 ^ 15 - 1 from rfl,
    Nat.and_two_pow_sub_one_eq_mod, Nat.mod_mod_of_dvd _ (by decide), Nat.or_mod_two_pow, hmark, Nat.or_zero]

theorem and_two_pow_eq_zero_iff (x k : Nat) : x &&& 2 ^ k = 0 ↔ x.testBit k = false := by
  constructor
  · intro h
    have hbit : (x &&& 2 ^ k).testBit k = false := by rw [h, Nat.zero_testBit]
    rwa [Nat.testBit_and, Nat.testBit_two_pow_self, Bool.and_true] at hbit
  · intro h
    apply Nat.eq_of_testBit_eq
    intro j
    rw [Nat.testBit_and, Nat.testBit_two_pow, Nat.zero_testBit]
    by_cases hj : k = j
    · subst hj
      rw [h, Bool.false_and]
    · rw [decide_eq_false hj, Bool.and_false]

/-- The high bit, as long as the index leaves it free. -/
theorem fragmentField_last {i : Nat} (hi : i < 32768) (last : Bool) :
    (fragmentField i last &&& 0x8000 != 0) = last := by
  have hmark : (lastMark last).testBit 15 = last := by cases last <;> rfl
  have hbit : ((i ||| lastMark last) % 2 ^ 16).testBit 15 = last := by
    rw [Nat.testBit_mod_two_pow, Nat.testBit_or, Nat.testBit_lt_two_pow (show i < 2 ^ 15 by omega), hmark]
    simp
  have hzero : fragmentField i last &&& 0x8000 = 0 ↔ last = false := by
    rw [← UInt16.toNat_inj, UInt16.toNat_and, fragmentField_toNat, show (0x8000 : UInt16).toNat = 2 ^ 15 from rfl,
      UInt16.toNat_zero, and_two_pow_eq_zero_iff, hbit]
  cases last with
  | true => exact bne_iff_ne.mpr fun h => absurd (hzero.mp h) (by decide)
  | false => exact bne_eq_false_iff_eq.mpr (hzero.mpr rfl)

/-! ## The sizes -/

section
variable [Dbuf]

theorem writeReliabilityHeader_length (h : ReliabilityHeader) (hc : h.ackCount ≤ 8) :
    (writeReliabilityHeader h).length = 4 + h.ackCount * 2 := by
  have hacks : ∀ l : List UInt16, (l.flatMap Dbuf.u16.write).length = l.length * 2 := by
    intro l
    induction l with
    | nil => rfl
    | cons a l ih => rw [List.flatMap_cons, List.length_append, ih, Dbuf.u16.write_length, List.length_cons]; omega
  unfold writeReliabilityHeader
  rw [List.length_append, List.length_append, hacks, h.ackList_length, Dbuf.u16.write_length, Dbuf.u16.write_length,
    Nat.min_eq_left hc]

/-- With a connection id, the header has the predicted size. -/
theorem encodeDataHeader_length {msg : DataMessage} {connectionId : UInt64} (hrel : ∀ h ∈ msg.relHeader, h.ackCount ≤ 8)
    (hid : connectionId ≠ 0) :
    (encodeDataHeader msg connectionId false).length = commonHdrSize + msg.relHdrSize + msg.compHdrSize := by
  obtain ⟨data, comp, rel⟩ := msg
  have hconn : (writeConnectionId connectionId).length = 8 := by
    unfold writeConnectionId
    rw [if_pos hid]
    exact Dbuf.u64.write_length _
  have hcomp : (comp.elim [] fun c => Dbuf.u32.write c.uncompressedSize).length = if comp.isSome then 4 else 0 := by
    cases comp with
    | none => rfl
    | some c => exact Dbuf.u32.write_length _
  have hrelLength : (rel.elim [] writeReliabilityHeader).length = rel.elim 0 fun h => 4 + h.ackCount * 2 := by
    cases rel with
    | none => rfl
    | some h => exact writeReliabilityHeader_length h (hrel h rfl)
  unfold encodeDataHeader dataHeaderFields DataMessage.relHdrSize DataMessage.compHdrSize commonHdrSize
  rw [if_neg Bool.false_ne_true, List.length_cons, List.length_append, List.length_append, hcomp, hconn, hrelLength]
  dsimp only
  omega

theorem fragmentDatagram_length (connectionId : UInt64) (msg : DataMessage) (fragMessageId : UInt16) (i : Nat)
    (last : Bool) (chunk : Bytes) :
    (fragmentDatagram connectionId msg fragMessageId i last chunk).length =
      (encodeDataHeader msg connectionId (i != 0)).length + fragHdrSize + chunk.length := by
  unfold fragmentDatagram fragHdrSize
  rw [List.length_append, List.length_append, List.length_append, List.length_modifyHead, Dbuf.u16.write_length,
    Dbuf.u16.write_length]

omit [Dbuf] in
theorem sizeSub_of_le {a b : Nat} (h : b ≤ a) (ha : a < 2 ^ 64) : sizeSub a b = a - b := by
  unfold sizeSub
  omega

omit [Dbuf] in
theorem relHdrSize_le {msg : DataMessage} (hrel : ∀ h ∈ msg.relHeader, h.ackCount ≤ 8) : msg.relHdrSize ≤ 20 := by
  unfold DataMessage.relHdrSize
  cases hr : msg.relHeader with
  | none => simp
  | some h =>
    have hc := hrel h hr
    simp only [Option.elim_some]
    omega

omit [Dbuf] in
theorem compHdrSize_le (msg : DataMessage) : msg.compHdrSize ≤ 4 := by
  unfold DataMessage.compHdrSize
  split <;> omega

omit [Dbuf] in
theorem firstPayloadSize_eq {msg : DataMessage} (hrel : ∀ h ∈ msg.relHeader, h.ackCount ≤ 8) :
    msg.firstPayloadSize 1200 = 1187 - msg.relHdrSize - msg.compHdrSize := by
  have hr := relHdrSize_le hrel
  have hc := compHdrSize_le msg
  unfold DataMessage.firstPayloadSize fragHdrSize commonHdrSize
  rw [sizeSub_of_le (show msg.relHdrSize ≤ 1200 by omega) (by decide),
    sizeSub_of_le (show msg.compHdrSize ≤ 1200 - msg.relHdrSize by omega) (by omega),
    sizeSub_of_le (show 4 ≤ 1200 - msg.relHdrSize - msg.compHdrSize by omega) (by omega),
    sizeSub_of_le (show 9 ≤ 1200 - msg.relHdrSize - msg.compHdrSize - 4 by omega) (by omega)]
  omega

omit [Dbuf] in
theorem restPayloadSize_eq : restPayloadSize 1200 = 1187 := rfl

/-! ## Reading a fragment -/

/-- What the receiver reads of the `i`-th of `n` fragments, apart from its data. -/
structure FragmentAt (msg : DataMessage) (fragMessageId : UInt16) (n i : Nat) (m : QunetMessageMeta) : Prop where
  fragment : ∃ h, m.fragmentationHeader = some h ∧ h.messageId = fragMessageId ∧ h.fragmentIndex.toNat = i ∧
    (h.lastFragment = true ↔ i + 1 = n)
  /-- A header of type `None` is not asked for: the receiver may take the message for an uncompressed one. -/
  compression : m.compressionHeader.isSome = (decide (msg.compType ≠ .none) && i == 0)
  reliability : if i = 0 then Option.Rel SameReliability msg.relHeader m.reliabilityHeader
    else m.reliabilityHeader = none

/-- The receiver reads a split of the message: datagrams of at most `mtu` bytes, numbered in order, the last one marked,
with the optional headers in the first one only, and the data in their chunks. -/
structure IsSplit (mtu : Nat) (connectionId : UInt64) (msg : DataMessage) (fragMessageId : UInt16)
    (datagrams : List Bytes) : Prop where
  size : ∀ d ∈ datagrams, d.length ≤ mtu
  decoded : ∃ metas, List.Forall₂ (DecodesTo (connectionId != 0)) datagrams metas ∧
    (∀ i, (hi : i < metas.length) → FragmentAt msg fragMessageId metas.length i metas[i]) ∧
    metas.flatMap (·.data) = msg.data

theorem readFragmentationHeader_reads (fragMessageId : UInt16) (i : Nat) (last : Bool) :
    Reads readFragmentationHeader (Dbuf.u16.write fragMessageId ++ Dbuf.u16.write (fragmentField i last))
      ⟨fragMessageId, fragmentField i last &&& 0x7FFF, fragmentField i last &&& 0x8000 != 0⟩ := by
  unfold readFragmentationHeader
  exact (Dbuf.u16.reads _ fragMessageId).bind
    ((Dbuf.u16.reads _ (fragmentField i last)).bind_pure fun index =>
      (⟨fragMessageId, index &&& 0x7FFF, index &&& 0x8000 != 0⟩ : FragmentationHeader))

omit [Dbuf] in
theorem dataHeaderByte_fragment (msg : DataMessage) :
    dataHeaderByte msg false ||| msgDataFragmentationMask = dataByte msg.compType msg.relHeader.isSome true := by
  rw [dataHeaderByte_eq]
  cases msg.compType <;> cases msg.relHeader.isSome <;> decide

/-- A fragment behind the first carries no other header, whatever the message is. -/
theorem fragmentDatagram_rest (connectionId : UInt64) (msg : DataMessage) (fragMessageId : UInt16) {i : Nat} (hi : i ≠ 0)
    (last : Bool) (chunk : Bytes) :
    ∃ m, DecodesTo (connectionId != 0) (fragmentDatagram connectionId msg fragMessageId i last chunk) m ∧
      m.fragmentationHeader =
        some ⟨fragMessageId, fragmentField i last &&& 0x7FFF, fragmentField i last &&& 0x8000 != 0⟩ ∧
      m.compressionHeader = none ∧ m.reliabilityHeader = none ∧ m.data = chunk := by
  have hbare : ∀ h ∈ ({ data := msg.data } : DataMessage).relHeader, h.ackCount ≤ 8 := by
    rintro h ⟨⟩
  obtain ⟨rel', offset, hsame, hdec⟩ := decodeMeta_encoded (namesAlgorithm_of_none rfl) connectionId hbare
    (readOptional_some (readFragmentationHeader_reads fragMessageId i last)) chunk
  refine ⟨_, ⟨_, _, ?_, hdec⟩, rfl, rfl, ?_, rfl⟩
  · unfold fragmentDatagram
    rw [show (i != 0) = true from bne_iff_ne.mpr hi, encodeDataHeader_omit, ← dataHeaderByte_fragment]
    unfold encodeDataHeader
    simp
  · cases hsame
    rfl

/-- The bytes of the first fragment. -/
theorem fragmentDatagram_zero (connectionId : UInt64) (msg : DataMessage) (fragMessageId : UInt16) (last : Bool)
    (chunk : Bytes) :
    fragmentDatagram connectionId msg fragMessageId 0 last chunk =
      dataByte msg.compType msg.relHeader.isSome true :: (dataHeaderFields msg connectionId false ++
        ((Dbuf.u16.write fragMessageId ++ Dbuf.u16.write (fragmentField 0 last)) ++ chunk)) := by
  unfold fragmentDatagram encodeDataHeader
  rw [← dataHeaderByte_fragment]
  simp

omit [Dbuf] in
theorem isSome_compHeader {msg : DataMessage} (hcomp : msg.NamesAlgorithm) :
    msg.compHeader.isSome = decide (msg.compType ≠ .none) := by
  obtain ⟨data, comp, rel⟩ := msg
  cases comp with
  | none => simp [DataMessage.compType]
  | some c => exact (decide_eq_true (hcomp c rfl)).symm

/-- The receiver reads the headers that the fragment carries, and its chunk. -/
theorem fragmentDatagram_decodes (connectionId : UInt64) {msg : DataMessage} (hcomp : msg.NamesAlgorithm)
    (fragMessageId : UInt16) (hrel : ∀ h ∈ msg.relHeader, h.ackCount ≤ 8) (i : Nat) (last : Bool) (chunk : Bytes) :
    ∃ m, DecodesTo (connectionId != 0) (fragmentDatagram connectionId msg fragMessageId i last chunk) m ∧
      m.fragmentationHeader =
        some ⟨fragMessageId, fragmentField i last &&& 0x7FFF, fragmentField i last &&& 0x8000 != 0⟩ ∧
      m.compressionHeader.isSome = (decide (msg.compType ≠ .none) && i == 0) ∧
      (if i = 0 then Option.Rel SameReliability msg.relHeader m.reliabilityHeader else m.reliabilityHeader = none) ∧
      m.data = chunk := by
  by_cases hi : i = 0
  · subst hi
    obtain ⟨rel', offset, hsame, hdec⟩ := decodeMeta_encoded hcomp connectionId hrel
      (readOptional_some (readFragmentationHeader_reads fragMessageId 0 last)) chunk
    refine ⟨_, ⟨_, _, fragmentDatagram_zero .., hdec⟩, rfl, ?_, hsame, rfl⟩
    rw [← isSome_compHeader hcomp]
    obtain ⟨data, comp, rel⟩ := msg
    cases comp with
    | none => rfl
    | some c =>
      have htype : c.type ≠ .none := hcomp c rfl
      simp [decodedComp, htype]
  · obtain ⟨m, hm, hfrag, hnone, hrel', hchunk⟩ :=
      fragmentDatagram_rest connectionId msg fragMessageId hi last chunk
    refine ⟨m, hm, hfrag, ?_, ?_, hchunk⟩
    · simp [hnone, hi]
    · rw [if_neg hi]
      exact hrel'

/-- What the receiver reads of the fragments with the given chunks. -/
theorem fragmentsOf_decodes (connectionId : UInt64) {msg : DataMessage} (hcomp : msg.NamesAlgorithm)
    (fragMessageId : UInt16) (hrel : ∀ h ∈ msg.relHeader, h.ackCount ≤ 8) (i : Nat) (chunks : List Bytes)
    (hn : i + chunks.length ≤ 32768) :
    ∃ metas, List.Forall₂ (DecodesTo (connectionId != 0)) (fragmentsOf connectionId msg fragMessageId i chunks) metas ∧
      (∀ j, (hj : j < metas.length) → FragmentAt msg fragMessageId (i + chunks.length) (i + j) metas[j]) ∧
      metas.flatMap (·.data) = chunks.flatten := by
  induction chunks generalizing i with
  | nil => exact ⟨[], .nil, fun j hj => absurd hj (Nat.not_lt_zero j), rfl⟩
  | cons chunk chunks ih =>
    rw [List.length_cons] at hn
    obtain ⟨metas, hdec, hall, hdata⟩ := ih (i + 1) (by omega)
    obtain ⟨m, hm, hfrag, hcomp', hrel', hchunk⟩ :=
      fragmentDatagram_decodes connectionId hcomp fragMessageId hrel i chunks.isEmpty chunk
    refine ⟨m :: metas, .cons hm hdec, fun j hj => ?_, ?_⟩
    · cases j with
      | zero =>
        refine ⟨⟨_, hfrag, rfl, ?_, ?_⟩, hcomp', hrel'⟩
        · rw [fragmentField_index]
          exact Nat.mod_eq_of_lt (by omega)
        · rw [fragmentField_last (by omega), List.isEmpty_iff, List.length_cons, ← List.length_eq_zero_iff]
          omega
      | succ j =>
        have hat := hall j (by rw [List.length_cons] at hj; omega)
        rw [show i + 1 + chunks.length = i + (chunks.length + 1) by omega,
          show i + 1 + j = i + (j + 1) by omega] at hat
        exact hat
    · rw [List.flatMap_cons, hchunk, hdata, List.flatten_cons]

/-! ## The datagrams of a message -/

theorem fragmentDatagram_size {connectionId : UInt64} {msg : DataMessage} {fragMessageId : UInt16}
    (hrel : ∀ h ∈ msg.relHeader, h.ackCount ≤ 8) (hid : connectionId ≠ 0) {i : Nat} {last : Bool} {chunk : Bytes}
    (hchunk : chunk.length ≤ payloadSizes (msg.firstPayloadSize 1200) (restPayloadSize 1200) i) :
    (fragmentDatagram connectionId msg fragMessageId i last chunk).length ≤ 1200 := by
  have hr := relHdrSize_le hrel
  have hc := compHdrSize_le msg
  rw [fragmentDatagram_length]
  unfold payloadSizes at hchunk
  unfold fragHdrSize
  by_cases hi : i = 0
  · subst hi
    rw [if_pos rfl, firstPayloadSize_eq hrel] at hchunk
    rw [show ((0 : Nat) != 0) = false from rfl, encodeDataHeader_length hrel hid, commonHdrSize]
    omega
  · have hbare : ∀ h ∈ ({ data := msg.data } : DataMessage).relHeader, h.ackCount ≤ 8 := by
      rintro h ⟨⟩
    rw [if_neg hi, restPayloadSize_eq] at hchunk
    rw [show (i != 0) = true from bne_iff_ne.mpr hi, encodeDataHeader_omit, encodeDataHeader_length hbare hid,
      commonHdrSize]
    change 9 + 0 + 0 + 4 + chunk.length ≤ 1200
    omega

theorem fragmentsOf_size {connectionId : UInt64} {msg : DataMessage} {fragMessageId : UInt16}
    (hrel : ∀ h ∈ msg.relHeader, h.ackCount ≤ 8) (hid : connectionId ≠ 0) {i : Nat} {data : Bytes} {chunks : List Bytes}
    (hcut : Cut (payloadSizes (msg.firstPayloadSize 1200) (restPayloadSize 1200)) i data chunks) :
    ∀ d ∈ fragmentsOf connectionId msg fragMessageId i chunks, d.length ≤ 1200 := by
  induction hcut with
  | nil i =>
    intro d hd
    cases hd
  | cons hne rest ih =>
    intro d hd
    rcases List.mem_cons.mp hd with rfl | hd
    · exact fragmentDatagram_size hrel hid (List.length_take_le _ _)
    · exact ih d hd

theorem fragmentsOf_length (connectionId : UInt64) (msg : DataMessage) (fragMessageId : UInt16) (i : Nat)
    (chunks : List Bytes) : (fragmentsOf connectionId msg fragMessageId i chunks).length = chunks.length := by
  induction chunks generalizing i with
  | nil => rfl
  | cons chunk chunks ih => rw [fragmentsOf, List.length_cons, ih, List.length_cons]

theorem fragmentsOf_getElem {connectionId : UInt64} {msg : DataMessage} {fragMessageId : UInt16} {i j : Nat}
    {chunks : List Bytes} (hj : j < (fragmentsOf connectionId msg fragMessageId i chunks).length) :
    ∃ last chunk, (fragmentsOf connectionId msg fragMessageId i chunks)[j] =
      fragmentDatagram connectionId msg fragMessageId (i + j) last chunk := by
  induction chunks generalizing i j with
  | nil => exact absurd hj (Nat.not_lt_zero j)
  | cons chunk chunks ih =>
    cases j with
    | zero => exact ⟨chunks.isEmpty, chunk, rfl⟩
    | succ j =>
      rw [fragmentsOf_length, List.length_cons] at hj
      obtain ⟨last, c, heq⟩ := @ih (i + 1) j (by rw [fragmentsOf_length]; omega)
      refine ⟨last, c, ?_⟩
      rw [show i + (j + 1) = i + 1 + j by omega]
      exact heq

/-! ## A header of type `None` -/

/-- What is read of the fragments behind the first, whatever the message is. -/
theorem fragmentsOf_data {connectionId : UInt64} {msg : DataMessage} {fragMessageId : UInt16} {i : Nat} (hi : i ≠ 0)
    {chunks : List Bytes} {metas : List QunetMessageMeta}
    (h : List.Forall₂ (DecodesTo (connectionId != 0)) (fragmentsOf connectionId msg fragMessageId i chunks) metas) :
    metas.flatMap (·.data) = chunks.flatten := by
  induction chunks generalizing i metas with
  | nil =>
    cases h
    rfl
  | cons chunk chunks ih =>
    unfold fragmentsOf at h
    cases h with
    | cons hm hrest =>
      obtain ⟨m, hm', -, -, -, hchunk⟩ :=
        fragmentDatagram_rest connectionId msg fragMessageId hi chunks.isEmpty chunk
      rw [List.flatMap_cons, hm'.unique hm, hchunk, ih (Nat.succ_ne_zero i) hrest, List.flatten_cons]

/-- The header byte of the first fragment announces no size, but the size is there: what is left behind the headers has
four bytes too many. -/
theorem fragmentDatagram_unannounced {connectionId : UInt64} {msg : DataMessage} (hcomp : ¬ msg.NamesAlgorithm)
    (hrel : ∀ h ∈ msg.relHeader, h.ackCount ≤ 8) {fragMessageId : UInt16} {last : Bool} {chunk : Bytes}
    {m : QunetMessageMeta}
    (hm : DecodesTo (connectionId != 0) (fragmentDatagram connectionId msg fragMessageId 0 last chunk) m)
    (hnone : m.compressionHeader = none) (hsame : Option.Rel SameReliability msg.relHeader m.reliabilityHeader)
    (hfrag : m.fragmentationHeader.isSome = true) : m.data.length = chunk.length + 4 := by
  obtain ⟨msgType, rest, hbytes, hdec⟩ := hm
  rw [fragmentDatagram_zero] at hbytes
  cases hbytes
  obtain ⟨hmask, -, -, -, hbound⟩ := dataByte_bits msg.compType msg.relHeader.isSome true
  obtain ⟨-, ⟨hcontrol, -⟩ | ⟨-, hdata⟩⟩ := decodeMeta_ok hdec
  · exact absurd hcontrol hmask
  rw [dataHeaderFields_body] at hdata
  obtain ⟨left, hread⟩ := decodeDataMeta_unbounded hbound hdata
  obtain ⟨header, hbody, hheader, -⟩ := readDataMeta_header hread
  have hsize : (sizeCode connectionId msg.compHeader).length = 4 := by
    cases hc : msg.compHeader with
    | none => exact absurd (namesAlgorithm_of_none hc) hcomp
    | some c => exact sizeCode_length connectionId c
  have hrelSize : (msg.relHeader.elim [] writeReliabilityHeader).length =
      m.reliabilityHeader.elim 0 fun hdr => 4 + 2 * min hdr.ackCount 8 := by
    generalize hrel' : msg.relHeader = rel at *
    generalize m.reliabilityHeader = rel' at *
    cases hsame with
    | none => rfl
    | @some h h' hsame =>
      have hc := hrel h rfl
      simp only [Option.elim_some]
      rw [writeReliabilityHeader_length h hc, hsame.ackCount]
      omega
  have hlength := congrArg List.length hbody
  simp only [List.length_append, hsize, hrelSize, Dbuf.u16.write_length] at hlength
  rw [hnone, hfrag] at hheader
  simp only [Option.isSome_none, Bool.false_eq_true, if_false, if_true] at hheader
  omega

/-- A message with a header of type `None` is not read as its fragments. -/
theorem IsSplit.namesAlgorithm {connectionId : UInt64} {msg : DataMessage} {fragMessageId : UInt16}
    (hrel : ∀ h ∈ msg.relHeader, h.ackCount ≤ 8) {mtu : Nat} {chunk : Bytes} {chunks : List Bytes}
    (hdata : (chunk :: chunks).flatten = msg.data)
    (h : IsSplit mtu connectionId msg fragMessageId
      (fragmentsOf connectionId msg fragMessageId 0 (chunk :: chunks))) : msg.NamesAlgorithm := by
  by_contra hcomp
  obtain ⟨metas, hdec, hall, hread⟩ := h.decoded
  unfold fragmentsOf at hdec
  cases hdec with
  | @cons _ m _ metas hm hrest =>
    have hat := hall 0 (Nat.zero_lt_succ _)
    obtain ⟨hdr, hhdr, -⟩ := hat.fragment
    have htype : msg.compType = .none := by
      by_contra htype
      refine hcomp fun c hc => ?_
      rw [Option.mem_def] at hc
      unfold DataMessage.compType at htype
      rwa [hc] at htype
    have hnone : m.compressionHeader = none := by simpa [htype] using hat.compression
    have hlong := fragmentDatagram_unannounced hcomp hrel hm hnone hat.reliability
      (Option.isSome_iff_exists.mpr ⟨hdr, hhdr⟩)
    rw [← hdata, List.flatMap_cons, fragmentsOf_data (Nat.succ_ne_zero 0) hrest, List.flatten_cons] at hread
    rw [List.append_cancel_right hread] at hlong
    omega

/-- Behind a header of type `None` the chunk is misread, and the fragments with the indices from 32768 on overwrite the
mark of the last one. -/
theorem fragmentsOf_isSplit_iff {connectionId : UInt64} {msg : DataMessage} (fragMessageId : UInt16)
    (hrel : ∀ h ∈ msg.relHeader, h.ackCount ≤ 8) (hid : connectionId ≠ 0) (hne : msg.data ≠ []) {chunks : List Bytes}
    (hcut : Cut (payloadSizes (msg.firstPayloadSize 1200) (restPayloadSize 1200)) 0 msg.data chunks) :
    IsSplit 1200 connectionId msg fragMessageId (fragmentsOf connectionId msg fragMessageId 0 chunks) ↔
      msg.NamesAlgorithm ∧ chunks.length ≤ 32768 := by
  constructor
  · intro h
    refine ⟨?_, ?_⟩
    · cases hchunks : chunks with
      | nil => exact absurd (hcut.eq_nil_iff.mp hchunks) hne
      | cons chunk tail =>
        rw [hchunks] at h
        exact h.namesAlgorithm hrel (hchunks ▸ hcut.flatten)
    · by_contra hgt
      obtain ⟨metas, hdec, hall, -⟩ := h.decoded
      have hlen := hdec.length_eq
      rw [fragmentsOf_length] at hlen
      have hj : 32768 < (fragmentsOf connectionId msg fragMessageId 0 chunks).length := by
        rw [fragmentsOf_length]
        omega
      have hj' : 32768 < metas.length := by omega
      have hread : DecodesTo (connectionId != 0) (fragmentsOf connectionId msg fragMessageId 0 chunks)[32768]
        metas[32768] := hdec.get hj hj'
      obtain ⟨last, chunk, heq⟩ := fragmentsOf_getElem hj
      rw [heq] at hread
      obtain ⟨m, hm, hfrag, -⟩ :=
        fragmentDatagram_rest connectionId msg fragMessageId (show 0 + 32768 ≠ 0 by decide) last chunk
      obtain ⟨hdr, hhdr, -, hindex, -⟩ := (hall 32768 hj').fragment
      rw [hm.unique hread, hfrag] at hhdr
      cases hhdr
      rw [fragmentField_index] at hindex
      omega
  · rintro ⟨hcomp, hle⟩
    obtain ⟨metas, hdec, hall, hdata⟩ := fragmentsOf_decodes connectionId hcomp fragMessageId hrel 0 chunks (by omega)
    refine ⟨fragmentsOf_size hrel hid hcut, metas, hdec, fun i hi => ?_, ?_⟩
    · have hat := hall i hi
      have hlen := hdec.length_eq
      rw [fragmentsOf_length] at hlen
      rwa [Nat.zero_add, Nat.zero_add, hlen] at hat
    · rw [hdata, hcut.flatten]

omit [Dbuf] in
/-- The room of `n + 1` fragments. -/
theorem sum_payloadSizes (first rest n : Nat) :
    ∑ j ∈ Finset.range (n + 1), payloadSizes first rest (0 + j) = first + n * rest := by
  rw [Finset.sum_range_succ']
  simp [payloadSizes, Nat.add_comm]

/-- A message that does not fit is sent in fragments. -/
theorem doSendUnfragmentedData_splits {t : UdpTransport} {msg : DataMessage} (retransmission : Bool)
    (hrel : ∀ h ∈ msg.relHeader, h.ackCount ≤ 8) (hmtu : t.mtu = 1200) (hbig : 1200 < msg.unfragTotalSize) :
    ∃ chunks, Cut (payloadSizes (msg.firstPayloadSize 1200) (restPayloadSize 1200)) 0 msg.data chunks ∧
      ∀ w, ∃ r t', t.doSendUnfragmentedData w msg retransmission =
        some (r, emittedAll w.link 0 (fragmentsOf t.connectionId msg t.fragStore.nextMessageId.1 0 chunks), t') := by
  have hr := relHdrSize_le hrel
  have hc := compHdrSize_le msg
  have hfirst : 0 < msg.firstPayloadSize 1200 := by
    rw [firstPayloadSize_eq hrel]
    omega
  have hrest : 0 < restPayloadSize 1200 := by decide
  obtain ⟨chunks, hcut⟩ := Cut.exists_of_pos (payloadSizes_pos hfirst hrest) 0 msg.data
  refine ⟨chunks, hcut, fun w => ?_⟩
  have hdrop : Cut (payloadSizes (msg.firstPayloadSize 1200) (restPayloadSize 1200)) 0 (msg.data.drop 0) chunks := hcut
  obtain ⟨r, tracker, hloop⟩ := sendFragments_emits w t.connectionId msg t.fragStore.nextMessageId.1 hfirst hrest hdrop
    (show msg.data.length - 0 < msg.data.length + 2 by omega) t.tracker
  unfold UdpTransport.doSendUnfragmentedData
  rw [hmtu, if_neg (by omega)]
  dsimp only
  rw [hloop]
  cases r with
  | error e => exact ⟨_, _, rfl⟩
  | ok u => exact ⟨_, _, rfl⟩

omit [Dbuf] in
/-- A message that does not fit has data: the headers alone are small. -/
theorem data_ne_nil {msg : DataMessage} (hrel : ∀ h ∈ msg.relHeader, h.ackCount ≤ 8) (hbig : 1200 < msg.unfragTotalSize) :
    msg.data ≠ [] := by
  intro hnil
  have hr := relHdrSize_le hrel
  have hc := compHdrSize_le msg
  unfold DataMessage.unfragTotalSize commonHdrSize at hbig
  rw [hnil, List.length_nil] at hbig
  omega

/-- **Splitting.** The loop ends, and its datagrams are a split of the message exactly if its compression header, if it
has one, is not of type `None`, and 32768 fragments have room for the data: the indices have 15 bits. -/
theorem fragments_isSplit_iff (t : UdpTransport) (msg : DataMessage) (retransmission : Bool)
    (hrel : ∀ h ∈ msg.relHeader, h.ackCount ≤ 8) (hid : t.connectionId ≠ 0) (hmtu : t.mtu = 1200)
    (hbig : t.mtu < (encodeDataHeader msg t.connectionId false ++ msg.data).length) :
    ∃ datagrams,
      (∀ w, ∃ r t', t.doSendUnfragmentedData w msg retransmission = some (r, emittedAll w.link 0 datagrams, t')) ∧
      (IsSplit t.mtu t.connectionId msg t.fragStore.nextMessageId.1 datagrams ↔
        msg.NamesAlgorithm ∧ msg.data.length ≤ (1187 - msg.relHdrSize - msg.compHdrSize) + 32767 * 1187) := by
  rw [List.length_append, encodeDataHeader_length hrel hid, hmtu] at hbig
  obtain ⟨chunks, hcut, hsend⟩ := doSendUnfragmentedData_splits retransmission hrel hmtu hbig
  refine ⟨_, hsend, ?_⟩
  rw [hmtu, fragmentsOf_isSplit_iff _ hrel hid (data_ne_nil hrel hbig) hcut, hcut.length_le_iff, sum_payloadSizes,
    firstPayloadSize_eq hrel, restPayloadSize_eq]

/-- A message is sent in one way only. -/
theorem datagrams_unique {t : UdpTransport} {msg : DataMessage} {retransmission : Bool} {ds ds' : List Bytes}
    (h : ∀ w, ∃ r t', t.doSendUnfragmentedData w msg retransmission = some (r, emittedAll w.link 0 ds, t'))
    (h' : ∀ w, ∃ r t', t.doSendUnfragmentedData w msg retransmission = some (r, emittedAll w.link 0 ds', t')) :
    ds = ds' := by
  obtain ⟨r, t₁, hr⟩ := h ⟨0, fun _ => .sent, fun _ => 0⟩
  obtain ⟨r', t₂, hr'⟩ := h' ⟨0, fun _ => .sent, fun _ => 0⟩
  rw [emittedAll_sent fun _ => rfl] at hr hr'
  rw [hr] at hr'
  cases hr'
  rfl

/-- A message for which 32768 fragments do not have room is not split. -/
theorem not_split_of_long {t : UdpTransport} {msg : DataMessage} (retransmission : Bool)
    (hrel : ∀ h ∈ msg.relHeader, h.ackCount ≤ 8) (hid : t.connectionId ≠ 0) (hmtu : t.mtu = 1200)
    (hlong : (1187 - msg.relHdrSize - msg.compHdrSize) + 32767 * 1187 < msg.data.length) :
    ¬ ∃ datagrams,
      (∀ w, ∃ r t', t.doSendUnfragmentedData w msg retransmission = some (r, emittedAll w.link 0 datagrams, t')) ∧
      IsSplit 1200 t.connectionId msg t.fragStore.nextMessageId.1 datagrams := by
  rintro ⟨datagrams, hsend, hsplit⟩
  have hbig : 1200 < msg.unfragTotalSize := by
    unfold DataMessage.unfragTotalSize
    omega
  obtain ⟨chunks, hcut, hchunks⟩ := doSendUnfragmentedData_splits retransmission hrel hmtu hbig
  rw [datagrams_unique hsend hchunks, fragmentsOf_isSplit_iff _ hrel hid (data_ne_nil hrel hbig) hcut,
    hcut.length_le_iff, sum_payloadSizes, firstPayloadSize_eq hrel, restPayloadSize_eq] at hsplit
  omega

end

/-- A message without headers, of `n` bytes. -/
def plainMessage (n : Nat) : DataMessage := { data := List.replicate n 7 }

theorem plainMessage_length (n : Nat) : (plainMessage n).data.length = n := List.length_replicate

theorem plainMessage_acks (n : Nat) : ∀ h ∈ (plainMessage n).relHeader, h.ackCount ≤ 8 := by
  rintro h ⟨⟩

/-- A message of 1192 bytes is split. -/
theorem fragments_isSplit_two :
    ∃ datagrams,
      (∀ w, ∃ r t', @UdpTransport.doSendUnfragmentedData Dbuf.little w { connectionId := 5 } (plainMessage 1192) false =
        some (r, emittedAll w.link 0 datagrams, t')) ∧
      @IsSplit Dbuf.little 1200 5 (plainMessage 1192) 1 datagrams := by
  have hbig : (1200 : Nat) < (@encodeDataHeader Dbuf.little (plainMessage 1192) 5 false ++
      (plainMessage 1192).data).length := by
    rw [List.length_append, plainMessage_length, @encodeDataHeader_length Dbuf.little _ _ (plainMessage_acks _)
      (by decide), commonHdrSize]
    omega
  obtain ⟨datagrams, hsend, hiff⟩ := @fragments_isSplit_iff Dbuf.little { connectionId := 5 } (plainMessage 1192) false
    (plainMessage_acks _) (by decide) rfl hbig
  refine ⟨datagrams, hsend, hiff.mpr ⟨namesAlgorithm_of_none rfl, ?_⟩⟩
  rw [plainMessage_length]
  omega

/-- A message of one byte more than 32768 fragments carry: the receiver takes the fragment with the index 32768 for the
first and the last one. -/
theorem longMessage_not_split :
    ¬ ∃ datagrams,
      (∀ w, ∃ r t', @UdpTransport.doSendUnfragmentedData Dbuf.little w { connectionId := 5 }
        (plainMessage (32768 * 1187 + 1)) false = some (r, emittedAll w.link 0 datagrams, t')) ∧
      @IsSplit Dbuf.little 1200 5 (plainMessage (32768 * 1187 + 1)) 1 datagrams := by
  have hlong : (1187 - (plainMessage (32768 * 1187 + 1)).relHdrSize - (plainMessage (32768 * 1187 + 1)).compHdrSize)
      + 32767 * 1187 < (plainMessage (32768 * 1187 + 1)).data.length := by
    rw [plainMessage_length]
    omega
  exact @not_split_of_long Dbuf.little { connectionId := 5 } _ false (plainMessage_acks _) (by decide) rfl hlong

end Qunet
