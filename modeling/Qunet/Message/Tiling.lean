import Qunet.Lib.Machine
import Qunet.Message.RoundTrip

/-!
# The messages of a datagram tile it

* `headerSize`, `announcedAcks` : what the decoder reads in front of the payload of the next message;
* `readDataMeta_split` : `dataOffset` is the size of that header, plus the acknowledgements that do not fit in it;
* `Tiles it it' m` : the message `m` that moves the iterator from `it` to `it'` lies between these positions;
* **`iterator_tiles_iff`** : every message tiles its datagram exactly if none announces more than 8 acknowledgements.
-/

namespace Qunet
open Lib

section
variable [Dbuf]

/-! ## What the readers consume -/

theorem readU16_consumes : Consumes readU16 fun _ k => k = 2 := Dbuf.u16.consumes _

theorem readU32_consumes : Consumes readU32 fun _ k => k = 4 := Dbuf.u32.consumes _

omit [Dbuf] in
theorem readOptional_consumes {α : Type} {r : DecodeReader α} {P : α → Nat → Prop} (present : Bool)
    (hr : Consumes r P) : Consumes (readOptional present r) fun o k => o.elim (k = 0) fun a => P a k := by
  unfold readOptional
  cases present with
  | true => exact Consumes.map some hr
  | false => exact Consumes.pure rfl

theorem readCompressionHeader_consumes (type : CompressionType) :
    Consumes (readCompressionHeader type) fun o k => k = if o.isSome then 4 else 0 := by
  unfold readCompressionHeader
  split
  · refine readU32_consumes.bind fun size n hn => Consumes.pure ?_
    subst hn
    rfl
  · exact Consumes.pure rfl

theorem readAcks_consumes (is : List Nat) (acks : Vector UInt16 8) :
    Consumes (readAcks is acks) fun _ k => k = 2 * is.length := by
  induction is generalizing acks with
  | nil => exact Consumes.pure rfl
  | cons i is ih =>
    unfold readAcks
    refine readU16_consumes.bind fun a n hn bs b rest h => ?_
    obtain ⟨code, hcode, hk⟩ := ih _ bs b rest h
    refine ⟨code, hcode, ?_⟩
    rw [hn, hk, List.length_cons]
    omega

theorem readReliabilityHeader_consumes :
    Consumes readReliabilityHeader fun h k => k = 4 + 2 * min h.ackCount 8 := by
  unfold readReliabilityHeader
  refine readU16_consumes.bind fun id n hn => readU16_consumes.bind fun count n' hn' => ?_
  refine (readAcks_consumes _ _).bind fun acks n'' hn'' => Consumes.pure ?_
  rw [hn, hn', hn'', decodeAckIndices, List.length_range]
  dsimp only
  omega

theorem readFragmentationHeader_consumes : Consumes readFragmentationHeader fun _ k => k = 4 := by
  unfold readFragmentationHeader
  refine readU16_consumes.bind fun id n hn => readU16_consumes.bind fun index n' hn' => Consumes.pure ?_
  rw [hn, hn']

/-! ## The header of a message -/

/-- What is read in front of the acknowledgements of a data message: their number, if it has a reliability header. -/
def readAckCount (msgType : UInt8) : DecodeReader (Option UInt16) := do
  let _comp ← readCompressionHeader (.ofBits (msgType &&& 0b11))
  readOptional (msgType &&& msgDataReliabilityMask != 0) do
    let _messageId ← readU16
    readU16

/-- The number of acknowledgements that a message announces, 0 without a reliability header. -/
def announcedAcks (msgType : UInt8) (rest : Bytes) (udpConnId : Bool) : Nat :=
  if msgType &&& msgDataMask = 0 then 0
  else match readAckCount msgType ((msgType :: rest).drop (dataStart udpConnId)) with
    | .ok (some count, _) => count.toNat
    | _ => 0

/-- The number of bytes that the decoder has read when it comes to the payload: before `readToEnd`, what it takes off
the body is the header. -/
def headerSize (msgType : UInt8) (rest : Bytes) (udpConnId : Bool) : Nat :=
  let start := dataStart udpConnId
  let body := (msgType :: rest).drop start
  if msgType &&& msgDataMask = 0 then start
  else match readDataMeta msgType start body with
    | .ok ((m, _), _) => start + (body.length - m.data.length)
    | .error _ => start

/-- The acknowledgements of a message, as the decoder counts them. -/
def QunetMessageMeta.ackCount (m : QunetMessageMeta) : Nat := m.reliabilityHeader.elim 0 (·.ackCount)

theorem readAckCount_eq {msgType : UInt8} {start : Nat} {body rest : Bytes} {m : QunetMessageMeta}
    {boundary : Option UInt16} (h : readDataMeta msgType start body = .ok ((m, boundary), rest)) :
    ∃ count rest', readAckCount msgType body = .ok (count, rest') ∧ count.elim 0 UInt16.toNat = m.ackCount := by
  unfold readDataMeta at h
  obtain ⟨comp, mid, hcomp, h⟩ := Reader.bind_ok h
  obtain ⟨rel, mid', hrel, h⟩ := Reader.bind_ok h
  obtain ⟨_, _, _, h⟩ := Reader.bind_ok h
  obtain ⟨_, _, _, h⟩ := Reader.bind_ok h
  obtain ⟨_, _, _, h⟩ := Reader.bind_ok h
  rw [Reader.run_pure] at h
  cases h
  unfold readAckCount
  rw [Reader.run_bind, hcomp]
  dsimp only
  unfold readOptional at hrel ⊢
  split at hrel
  · next hbit =>
    rw [if_pos hbit]
    rw [Reader.run_map] at hrel
    cases hr : readReliabilityHeader mid with
    | error e => rw [hr] at hrel; cases hrel
    | ok p =>
      rw [hr] at hrel
      cases hrel
      unfold readReliabilityHeader at hr
      obtain ⟨id, mid₁, hid, hr⟩ := Reader.bind_ok hr
      obtain ⟨count, mid₂, hcount, hr⟩ := Reader.bind_ok hr
      obtain ⟨acks, mid₃, -, hr⟩ := Reader.bind_ok hr
      rw [Reader.run_pure] at hr
      refine ⟨some count, mid₂, ?_, ?_⟩
      · rw [Reader.run_map, Reader.run_bind, hid]
        dsimp only
        rw [hcount]
      · rw [← (Prod.mk.inj (Except.ok.inj hr)).1]
        rfl
  · next hbit =>
    rw [if_neg hbit]
    cases hrel
    exact ⟨none, mid, rfl, rfl⟩

/-- The number of bytes in front of the payload. -/
theorem readDataMeta_header {msgType : UInt8} {start : Nat} {body rest : Bytes} {m : QunetMessageMeta}
    {boundary : Option UInt16} (h : readDataMeta msgType start body = .ok ((m, boundary), rest)) :
    ∃ header, body = header ++ m.data ∧
      header.length = (if m.compressionHeader.isSome then 4 else 0)
        + m.reliabilityHeader.elim 0 (fun hdr => 4 + 2 * min hdr.ackCount 8)
        + (if m.fragmentationHeader.isSome then 4 else 0) + (if boundary.isSome then 2 else 0) ∧
      m.dataOffset = start + header.length + 2 * (m.ackCount - 8) := by
  unfold readDataMeta at h
  obtain ⟨comp, mid₁, hcomp, h⟩ := Reader.bind_ok h
  obtain ⟨rel, mid₂, hrel, h⟩ := Reader.bind_ok h
  obtain ⟨frag, mid₃, hfrag, h⟩ := Reader.bind_ok h
  obtain ⟨bound, mid₄, hbound, h⟩ := Reader.bind_ok h
  obtain ⟨data, mid₅, hdata, h⟩ := Reader.bind_ok h
  rw [Reader.run_pure] at h
  cases h
  cases hdata
  obtain ⟨c₁, rfl, h₁⟩ := readCompressionHeader_consumes _ _ _ _ hcomp
  obtain ⟨c₂, rfl, h₂⟩ := readOptional_consumes _ readReliabilityHeader_consumes _ _ _ hrel
  obtain ⟨c₃, rfl, h₃⟩ := readOptional_consumes _ readFragmentationHeader_consumes _ _ _ hfrag
  obtain ⟨c₄, rfl, h₄⟩ := readOptional_consumes _ readU16_consumes _ _ _ hbound
  have hrelSize : c₂.length = rel.elim 0 fun hdr => 4 + 2 * min hdr.ackCount 8 := by
    cases rel <;> exact h₂
  have hfragSize : c₃.length = if frag.isSome then 4 else 0 := by
    cases frag <;> exact h₃
  have hboundSize : c₄.length = if boundary.isSome then 2 else 0 := by
    cases boundary <;> exact h₄
  -- every announced acknowledgement is counted, the first 8 are read
  have hacks : (rel.elim 0 fun hdr => 4 + hdr.ackCount * 2) = c₂.length + 2 * (rel.elim 0 (·.ackCount) - 8) := by
    rw [hrelSize]
    cases rel with
    | none => rfl
    | some hdr =>
      simp only [Option.elim_some]
      omega
  refine ⟨c₁ ++ (c₂ ++ (c₃ ++ c₄)), by simp only [List.append_assoc], ?_, ?_⟩
  · simp only [List.length_append]
    omega
  · simp only [List.length_append, QunetMessageMeta.ackCount]
    omega

/-- **The header and the payload.** The decoder counts every announced acknowledgement into `dataOffset`, but reads no
more than 8 of them. -/
theorem readDataMeta_split {msgType : UInt8} {start : Nat} {body rest : Bytes} {m : QunetMessageMeta}
    {boundary : Option UInt16} (h : readDataMeta msgType start body = .ok ((m, boundary), rest)) :
    ∃ header, body = header ++ m.data ∧ m.dataOffset = start + header.length + 2 * (m.ackCount - 8) := by
  obtain ⟨header, hbody, -, hoffset⟩ := readDataMeta_header h
  exact ⟨header, hbody, hoffset⟩

/-! ## The iterator -/

namespace QunetUdpMessageIter

/-- `f` of the message that comes next, 0 behind the last one. -/
def atNext (f : UInt8 → Bytes → Bool → Nat) (it : QunetUdpMessageIter) : Nat :=
  match it.data.drop it.pos with
  | [] => 0
  | msgType :: rest => f msgType rest (it.pos = 0 && it.server)

/-- `it` is reached by calls of `next` on the datagram, each of which returned a message. -/
def Reaches (data : Bytes) (server : Bool) : QunetUdpMessageIter → Prop :=
  Reachable (· = { data, server }) fun it it' => ∃ m, it.next = (some (.ok m), it')

/-- The message `m`, which moves the iterator from `it` to `it'`, tiles this part of the datagram. -/
structure Tiles (it it' : QunetUdpMessageIter) (m : QunetMessageMeta) : Prop where
  /-- What precedes the payload is what was read of the header: no byte is skipped or read twice. -/
  header : m.dataOffset = it.atNext headerSize
  payload : m.data = (it.data.drop (it.pos + m.dataOffset)).take m.data.length
  inside : it.pos + m.dataOffset + m.data.length ≤ it.data.length
  next : it'.pos = it.pos + m.dataOffset + m.data.length

/-- What `decodeMeta` returns, with the header that it read. -/
theorem decodeMeta_split {msgType : UInt8} {rest : Bytes} {udpConnId : Bool} {m : QunetMessageMeta}
    (h : decodeMeta msgType rest udpConnId = .ok m) :
    ∃ header behind, msgType :: rest = header ++ (m.data ++ behind) ∧
      headerSize msgType rest udpConnId = header.length ∧
      m.dataOffset = header.length + 2 * (announcedAcks msgType rest udpConnId - 8) := by
  obtain ⟨hstart, hparts⟩ := decodeMeta_ok h
  unfold headerSize announcedAcks
  dsimp only
  have hsplit := List.take_append_drop (dataStart udpConnId) (msgType :: rest)
  have hlen : ((msgType :: rest).take (dataStart udpConnId)).length = dataStart udpConnId := by
    rw [List.length_take]
    omega
  generalize (msgType :: rest).drop (dataStart udpConnId) = body at *
  generalize (msgType :: rest).take (dataStart udpConnId) = pre at *
  rcases hparts with ⟨hmask, hcontrol⟩ | ⟨hmask, hdata⟩
  · obtain ⟨dataSize, _, -, -, -, hpayload, hoffset⟩ := decodeControlMeta_ok hcontrol
    rw [if_pos hmask, if_pos hmask]
    refine ⟨pre, body.drop dataSize, ?_, hlen.symm, ?_⟩
    · rw [hpayload, List.take_append_drop, hsplit]
    · exact hoffset.trans hlen.symm
  · obtain ⟨m₀, boundary, left, n, hread, rfl⟩ := decodeDataMeta_ok hdata
    obtain ⟨header, hheader, hsize⟩ := readDataMeta_split hread
    obtain ⟨count, rest', hcount, hacks⟩ := readAckCount_eq hread
    rw [if_neg hmask, if_neg hmask, hread, hcount]
    refine ⟨pre ++ header, m₀.data.drop n, ?_, ?_, ?_⟩
    · rw [List.take_append_drop, List.append_assoc, ← hheader, hsplit]
    · dsimp only
      rw [hheader, List.length_append, List.length_append, hlen]
      omega
    · dsimp only
      rw [hsize, List.length_append, hlen, ← hacks]
      cases count <;> rfl

/-- **One message.** It tiles its part of the datagram exactly if it announces at most 8 acknowledgements. -/
theorem tiles_iff {it it' : QunetUdpMessageIter} {m : QunetMessageMeta} (h : it.next = (some (.ok m), it')) :
    Tiles it it' m ↔ it.atNext announcedAcks ≤ 8 := by
  have hdrop : ∃ msgType rest, it.data.drop it.pos = msgType :: rest ∧
      decodeMeta msgType rest (it.pos = 0 && it.server) = .ok m ∧ it'.pos = it.pos + (m.dataOffset + m.data.length) := by
    unfold next at h
    split at h
    · cases h
    · split at h
      · cases h
      · next msgType rest hd =>
        split at h
        · cases h
        · next m' hm =>
          cases h
          exact ⟨msgType, rest, hd, hm, rfl⟩
  obtain ⟨msgType, rest, hd, hm, hpos⟩ := hdrop
  obtain ⟨header, behind, hbytes, hsize, hoffset⟩ := decodeMeta_split hm
  have hnext : ∀ f, it.atNext f = f msgType rest (it.pos = 0 && it.server) := by
    intro f
    unfold atNext
    rw [hd]
  rw [hnext announcedAcks]
  constructor
  · intro htiles
    have hheader := htiles.header
    rw [hnext headerSize, hsize, hoffset] at hheader
    omega
  · intro hacks
    have hexact : m.dataOffset = header.length := by omega
    have hdata : it.data.drop (it.pos + m.dataOffset) = m.data ++ behind := by
      rw [← List.drop_drop, hd, hbytes, hexact, List.drop_left]
    have hlen := congrArg List.length (hd.trans hbytes)
    rw [List.length_drop, List.length_append, List.length_append] at hlen
    refine ⟨?_, ?_, ?_, ?_⟩
    · rw [hnext headerSize, hsize, hexact]
    · rw [hdata, List.take_left]
    · have hlt : it.pos < it.data.length := by
        by_contra hge
        rw [List.drop_eq_nil_of_le (by omega)] at hd
        cases hd
      omega
    · rw [hpos]
      omega

/-- **The messages tile the datagram.** Every message that `next` returns, on any datagram and on either side, is read
from the bytes behind the one before, exactly if every message announces at most 8 acknowledgements. -/
theorem iterator_tiles_iff (data : Bytes) (server : Bool) :
    (∀ it it' m, Reaches data server it → it.next = (some (.ok m), it') → Tiles it it' m) ↔
      ∀ it it' m, Reaches data server it → it.next = (some (.ok m), it') → it.atNext announcedAcks ≤ 8 := by
  constructor
  · intro h it it' m hr hn
    exact (tiles_iff hn).mp (h it it' m hr hn)
  · intro h it it' m hr hn
    exact (tiles_iff hn).mpr (h it it' m hr hn)

end QunetUdpMessageIter

end

/-- A data message that announces nine acknowledgements, of which eight are there, in front of a payload of four
bytes. -/
def nineAcksMessage : Bytes := [0x90, 0, 0, 9, 0] ++ List.replicate 16 0 ++ [1, 2, 3, 4]

/-- The payload `1, 2, 3, 4` begins at byte 21, but is said to begin at byte 23 and to end behind the datagram. -/
theorem nineAcksMessage_untiled :
    ¬ ∀ it it' m, @QunetUdpMessageIter.Reaches Dbuf.little nineAcksMessage false it →
      @QunetUdpMessageIter.next Dbuf.little it = (some (.ok m), it') → @QunetUdpMessageIter.Tiles Dbuf.little it it' m := by
  intro h
  have hnext : @QunetUdpMessageIter.next Dbuf.little { data := nineAcksMessage, server := false } =
      (some (.ok ⟨msgData, none, some ⟨0, 9, .replicate 8 0⟩, none, [1, 2, 3, 4], 23⟩),
        { data := nineAcksMessage, server := false, pos := 27 }) := rfl
  have hinside := @QunetUdpMessageIter.Tiles.inside Dbuf.little _ _ _ (h _ _ _ (Reachable.start rfl) hnext)
  exact absurd hinside (by decide)

end Qunet
