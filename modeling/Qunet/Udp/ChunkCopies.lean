import Qunet.Lib.Traced
import Qunet.Udp.HandshakeChunks

/-!
# The copies of the handshake (`UdpTransport::performHandshake`)

* `combineCopying` : the loop that combines the chunks, with its assertion, recording every copy;
* `addChunkCopying`, `handshakeFinishes` : the chunks of a sequence of handshake finish messages;
* `handshakeMessages_eq` : what the handshake loop does with such a sequence;
* `decode_chunkSize` : the data of a decoded chunk has the announced size;
* **`handshakeFinishes_safe`** : the copies stay inside the buffers for whatever a server sends.
-/

namespace Qunet
open Lib Traced

/-- `memcpy` of `count` bytes, from a source of `available` bytes to the offset of a buffer of `size` bytes. -/
structure ChunkCopy where
  size : Nat
  offset : Nat
  available : Nat
  count : Nat

/-- The copy writes inside the buffer, which has at most 1 MiB, and reads inside its source. -/
def ChunkCopy.InBounds (c : ChunkCopy) : Prop :=
  c.size ≤ 1024 * 1024 ∧ c.offset + c.count ≤ c.size ∧ c.count ≤ c.available

/-- The assertion `chunkData.size() == chunkSize` fails. -/
inductive ChunkFault where
  | chunkSize

abbrev ChunkRun (α : Type) := Traced ChunkCopy ChunkFault TransportError α

def combineCopying (compressedSize : UInt32) : Bytes → List QdbData → ChunkRun Bytes
  | combinedData, [] => pure combinedData
  | combinedData, c :: rest =>
    if c.chunkData.length ≠ c.chunkSize.toNat then abort .chunkSize
    else if c.chunkOffset > compressedSize ∨ c.chunkOffset + c.chunkSize > compressedSize then
      fail (handshakeError "Qdb chunk data out of bounds")
    else do
      record ⟨combinedData.length, c.chunkOffset.toNat, c.chunkData.length, c.chunkSize.toNat⟩
      combineCopying compressedSize (copyInto combinedData c.chunkOffset.toNat (c.chunkData.take c.chunkSize.toNat))
        rest

/-- `none` while chunks are missing. -/
def finishCopying (c : QdbChunks) : ChunkRun (QdbChunks ⊕ HandshakeFinishMessage) :=
  let sizeSum := (c.chunks.map (·.chunkSize.toNat)).sum
  if sizeSum ≠ c.compressedSize.toNat then pure (.inl c)
  else do
    let combinedData ← combineCopying c.compressedSize (List.replicate c.compressedSize.toNat 0) c.chunks
    pure (.inr
      { connectionId := c.connectionId
        qdbData := some
          { uncompressedSize := c.uncompressedSize, compressedSize := c.compressedSize, chunkOffset := 0,
            chunkSize := c.compressedSize, chunkData := combinedData } })

def addChunkCopying (c : Option QdbChunks) (connectionId : UInt64) (qdbData : QdbData) :
    ChunkRun (QdbChunks ⊕ HandshakeFinishMessage) :=
  match c with
  | none =>
    if qdbData.compressedSize.toNat > 1024 * 1024 then fail (handshakeError "Qdb data is too large")
    else finishCopying ⟨connectionId, qdbData.uncompressedSize, qdbData.compressedSize, [qdbData]⟩
  | some c =>
    if connectionId ≠ c.connectionId then
      fail (handshakeError "Mismatch between connection IDs in handshake chunks")
    else if ∃ c' ∈ c.chunks, c'.chunkOffset = qdbData.chunkOffset then pure (.inl c)
    else finishCopying { c with chunks := c.chunks ++ [qdbData] }

/-- The handshake finish messages of a server, one after another: the message that ends the handshake, or the chunks so
far. -/
def handshakeFinishes : Option QdbChunks → List HandshakeFinishMessage →
    ChunkRun (Option QdbChunks ⊕ HandshakeFinishMessage)
  | c, [] => pure (.inl c)
  | c, msg :: rest =>
    match msg.qdbData with
    | none => pure (.inr msg)
    | some qdbData => do
      match ← addChunkCopying c msg.connectionId qdbData with
      | .inl c => handshakeFinishes (some c) rest
      | .inr outMessage => pure (.inr outMessage)

/-- The decoder gives a chunk as many bytes as it announces. -/
def QdbData.Sized (d : QdbData) : Prop := d.chunkData.length = d.chunkSize.toNat

/-! ## Decoded chunks -/

section
variable [Dbuf]

theorem qdbData_decode_sized {bytes rest : Bytes} {d : QdbData} (h : QdbData.decode bytes = .ok (d, rest)) :
    d.Sized := by
  unfold QdbData.decode at h
  obtain ⟨uncompressedSize, bs₁, -, h⟩ := Reader.bind_ok h
  obtain ⟨compressedSize, bs₂, -, h⟩ := Reader.bind_ok h
  obtain ⟨chunkOffset, bs₃, -, h⟩ := Reader.bind_ok h
  obtain ⟨chunkSize, bs₄, -, h⟩ := Reader.bind_ok h
  obtain ⟨chunkData, bs₅, hdata, h⟩ := Reader.bind_ok h
  cases h
  show chunkData.length = chunkSize.toNat
  split at hdata
  · exact (Reader.take_ok hdata).2
  · next hzero =>
    cases hdata
    rw [gt_iff_lt, UInt32.lt_iff_toNat_lt] at hzero
    simp at hzero
    simp [hzero]

theorem decode_chunkSize {bytes rest : Bytes} {m : HandshakeFinishMessage}
    (h : HandshakeFinishMessage.decode bytes = .ok (m, rest)) : ∀ d ∈ m.qdbData, d.Sized := by
  unfold HandshakeFinishMessage.decode at h
  obtain ⟨connectionId, bs₁, -, h⟩ := Reader.bind_ok h
  obtain ⟨present, bs₂, -, h⟩ := Reader.bind_ok h
  obtain ⟨qdbData, bs₃, hqdb, h⟩ := Reader.bind_ok h
  cases h
  intro d hd
  obtain rfl : qdbData = some d := hd
  unfold readOptional at hqdb
  split at hqdb
  · rw [Reader.run_map] at hqdb
    cases hdec : QdbData.decode bs₂ with
    | error e => rw [hdec] at hqdb; cases hqdb
    | ok p =>
      rw [hdec] at hqdb
      cases hqdb
      exact qdbData_decode_sized hdec
  · cases hqdb

end

/-! ## Combining -/

section Combine
variable {compressedSize : UInt32}

/-- No chunk being larger than the whole, the sum of two 32-bit numbers in the check does not wrap around. -/
theorem combineCopying_safe (hmax : compressedSize.toNat ≤ 1024 * 1024) {chunks : List QdbData}
    (hsized : ∀ d ∈ chunks, d.Sized) (hle : ∀ d ∈ chunks, d.chunkSize.toNat ≤ compressedSize.toNat) {buf : Bytes}
    (hbuf : buf.length = compressedSize.toNat) :
    (combineCopying compressedSize buf chunks).Safe ChunkCopy.InBounds ∧
      ∀ out, (combineCopying compressedSize buf chunks).ending = .returned out → out.length = compressedSize.toNat := by
  induction chunks generalizing buf with
  | nil =>
    refine ⟨safe_pure buf, fun out hout => ?_⟩
    cases hout
    exact hbuf
  | cons d chunks ih =>
    have hd : d.chunkData.length = d.chunkSize.toNat := hsized d List.mem_cons_self
    have hdle := hle d List.mem_cons_self
    unfold combineCopying
    rw [if_neg (not_not.mpr hd)]
    split
    · exact ⟨safe_fail _, fun out hout => by cases hout⟩
    · next hcheck =>
      rw [not_or] at hcheck
      obtain ⟨hoffset, hend⟩ := hcheck
      have hoffset' := UInt32.le_iff_toNat_le.mp (UInt32.not_lt.mp hoffset)
      have hend' := UInt32.le_iff_toNat_le.mp (UInt32.not_lt.mp hend)
      rw [UInt32.toNat_add, Nat.mod_eq_of_lt (by omega)] at hend'
      have htake : d.chunkData.take d.chunkSize.toNat = d.chunkData := List.take_of_length_le (by omega)
      have hcopy : (copyInto buf d.chunkOffset.toNat d.chunkData).length = compressedSize.toNat := by
        rw [copyInto_length (by omega), hbuf]
      rw [htake]
      obtain ⟨hsafe, hlen⟩ := ih (fun d' hd' => hsized d' (List.mem_cons_of_mem d hd'))
        (fun d' hd' => hle d' (List.mem_cons_of_mem d hd')) hcopy
      rw [safe_record_bind_iff, bind_ending (record_ending _)]
      refine ⟨⟨⟨?_, ?_, ?_⟩, hsafe⟩, hlen⟩
      · show buf.length ≤ 1024 * 1024
        omega
      · show d.chunkOffset.toNat + d.chunkSize.toNat ≤ buf.length
        omega
      · show d.chunkSize.toNat ≤ d.chunkData.length
        omega

/-- Without the copies this is `combineChunks`. -/
theorem combineCopying_ending {chunks : List QdbData} (hsized : ∀ d ∈ chunks, d.Sized) (buf : Bytes) :
    (combineCopying compressedSize buf chunks).ending =
      (ofExcept (combineChunks compressedSize buf chunks) : ChunkRun Bytes).ending := by
  induction chunks generalizing buf with
  | nil => rfl
  | cons d chunks ih =>
    have hd : d.chunkData.length = d.chunkSize.toNat := hsized d List.mem_cons_self
    unfold combineCopying combineChunks
    rw [if_neg (not_not.mpr hd)]
    split
    · rfl
    · rw [bind_ending (record_ending _), List.take_of_length_le (by omega)]
      exact ih (fun d' hd' => hsized d' (List.mem_cons_of_mem d hd')) _

end Combine

/-! ## The chunks so far -/

/-- The chunks are as the decoder makes them, and the size that the first one announced was checked. -/
structure QdbChunks.Checked (c : QdbChunks) : Prop where
  size : c.compressedSize.toNat ≤ 1024 * 1024
  sized : ∀ d ∈ c.chunks, d.Sized

theorem QdbChunks.Checked.append {c : QdbChunks} (h : c.Checked) {d : QdbData} (hd : d.Sized) :
    QdbChunks.Checked { c with chunks := c.chunks ++ [d] } := by
  refine ⟨h.size, fun d' hd' => ?_⟩
  rcases List.mem_append.mp hd' with hd' | hd'
  · exact h.sized d' hd'
  · rwa [List.mem_singleton.mp hd']

/-- A returned chunk is the whole of what the first one announced. -/
def HandshakeFinishMessage.Whole (compressedSize : UInt32) (m : HandshakeFinishMessage) : Prop :=
  ∃ d, m.qdbData = some d ∧ d.chunkSize = compressedSize ∧ d.chunkData.length = compressedSize.toNat

/-- How a round with a chunk may end. -/
def ChunkOutcome (compressedSize : UInt32) : QdbChunks ⊕ HandshakeFinishMessage → Prop
  | .inl c => c.Checked ∧ c.compressedSize = compressedSize
  | .inr m => m.Whole compressedSize

theorem finishCopying_safe {c : QdbChunks} (h : c.Checked) :
    (finishCopying c).Safe ChunkCopy.InBounds ∧
      ∀ res, (finishCopying c).ending = .returned res → ChunkOutcome c.compressedSize res := by
  unfold finishCopying
  dsimp only
  split
  · refine ⟨safe_pure _, fun res hres => ?_⟩
    cases hres
    exact ⟨h, rfl⟩
  · next hsum =>
    have hle : ∀ d ∈ c.chunks, d.chunkSize.toNat ≤ c.compressedSize.toNat := by
      intro d hd
      have hmem := List.le_sum_of_mem (List.mem_map_of_mem (f := fun d : QdbData => d.chunkSize.toNat) hd)
      omega
    obtain ⟨hsafe, hlen⟩ := combineCopying_safe h.size h.sized hle
      (List.length_replicate (n := c.compressedSize.toNat) (a := (0 : UInt8)))
    refine ⟨safe_bind_iff.mpr ⟨hsafe, fun _ _ => safe_pure _⟩, fun res hres => ?_⟩
    obtain ⟨combinedData, hend, hres⟩ := bind_returned hres
    cases hres
    exact ⟨_, rfl, rfl, hlen combinedData hend⟩

theorem addChunkCopying_safe {c : Option QdbChunks} (h : ∀ c' ∈ c, c'.Checked) (connectionId : UInt64) {d : QdbData}
    (hd : d.Sized) :
    (addChunkCopying c connectionId d).Safe ChunkCopy.InBounds ∧
      ∀ res, (addChunkCopying c connectionId d).ending = .returned res →
        ChunkOutcome (c.elim d.compressedSize (·.compressedSize)) res := by
  unfold addChunkCopying
  cases c with
  | none =>
    dsimp only
    split
    · exact ⟨safe_fail _, fun res hres => by cases hres⟩
    · next hsize =>
      exact finishCopying_safe (c := ⟨connectionId, d.uncompressedSize, d.compressedSize, [d]⟩)
        ⟨Nat.not_lt.mp hsize, by simpa using hd⟩
  | some c =>
    have hc := h c rfl
    dsimp only
    split
    · exact ⟨safe_fail _, fun res hres => by cases hres⟩
    · split
      · refine ⟨safe_pure _, fun res hres => ?_⟩
        cases hres
        exact ⟨hc, rfl⟩
      · exact finishCopying_safe (hc.append hd)

/-! ## A sequence of chunks -/

/-- The compressed size that the first chunk announces. -/
def announced (c : Option QdbChunks) (msgs : List HandshakeFinishMessage) : Option UInt32 :=
  c.elim ((msgs.filterMap (·.qdbData)).head?.map (·.compressedSize)) (some ·.compressedSize)

theorem handshakeFinishes_run {c : Option QdbChunks} (h : ∀ c' ∈ c, c'.Checked) {msgs : List HandshakeFinishMessage}
    (hmsgs : ∀ m ∈ msgs, ∀ d ∈ m.qdbData, d.Sized) :
    (handshakeFinishes c msgs).Safe ChunkCopy.InBounds ∧
      ∀ m, (handshakeFinishes c msgs).ending = .returned (.inr m) →
        m.qdbData = none ∨ ∃ size, announced c msgs = some size ∧ m.Whole size := by
  induction msgs generalizing c with
  | nil => exact ⟨safe_pure _, fun m hm => by cases hm⟩
  | cons msg msgs ih =>
    unfold handshakeFinishes
    cases hq : msg.qdbData with
    | none =>
      refine ⟨safe_pure _, fun m hm => ?_⟩
      cases hm
      exact .inl hq
    | some d =>
      have hd : d.Sized := hmsgs msg List.mem_cons_self d hq
      have hrest : ∀ m ∈ msgs, ∀ d ∈ m.qdbData, d.Sized := fun m hm => hmsgs m (List.mem_cons_of_mem msg hm)
      have hannounced : announced c (msg :: msgs) = some (c.elim d.compressedSize (·.compressedSize)) := by
        cases c <;> simp [announced, hq]
      obtain ⟨hsafe, hres⟩ := addChunkCopying_safe h msg.connectionId hd
      dsimp only
      rw [safe_bind_iff, hannounced]
      refine ⟨⟨hsafe, fun res hend => ?_⟩, fun m hm => ?_⟩
      · have hout := hres res hend
        cases res with
        | inl c' => exact (ih (c := some c') (by rintro _ ⟨⟩; exact hout.1) hrest).1
        | inr m' => exact safe_pure _
      · obtain ⟨res, hend, hm⟩ := bind_returned hm
        have hout := hres res hend
        cases res with
        | inl c' =>
          obtain ⟨hc', hsize⟩ := hout
          have hm' := (ih (c := some c') (by rintro _ ⟨⟩; exact hc') hrest).2 m hm
          rwa [show announced (some c') msgs = some c'.compressedSize from rfl, hsize] at hm'
        | inr m' =>
          cases hm
          exact .inr ⟨_, rfl, hout⟩

/-- **The chunks of a hostile server.** Whatever handshake finish messages are decoded, every copy stays inside a buffer
of at most 1 MiB, the assertion holds, and a returned chunk has the size that the first one announced. -/
theorem handshakeFinishes_safe [Dbuf] (msgs : List HandshakeFinishMessage)
    (hdecoded : ∀ m ∈ msgs, ∃ bytes rest, HandshakeFinishMessage.decode bytes = .ok (m, rest)) :
    (handshakeFinishes none msgs).Safe ChunkCopy.InBounds ∧
      ∀ m d, (handshakeFinishes none msgs).ending = .returned (.inr m) → m.qdbData = some d →
        ∃ first, (msgs.filterMap (·.qdbData)).head? = some first ∧ d.chunkSize = first.compressedSize ∧
          d.chunkData.length = d.chunkSize.toNat := by
  have hsized : ∀ m ∈ msgs, ∀ d ∈ m.qdbData, d.Sized := by
    intro m hm
    obtain ⟨bytes, rest, hdec⟩ := hdecoded m hm
    exact decode_chunkSize hdec
  obtain ⟨hsafe, hres⟩ := handshakeFinishes_run (c := none) (by simp) hsized
  refine ⟨hsafe, fun m d hm hd => ?_⟩
  rcases hres m hm with hnone | ⟨size, hsize, d', hd', hchunk, hlen⟩
  · rw [hd] at hnone
    cases hnone
  · rw [hd] at hd'
    cases hd'
    obtain ⟨first, hfirst, rfl⟩ := Option.map_eq_some_iff.mp hsize
    exact ⟨first, hfirst, hchunk, by rw [hchunk, hlen]⟩

/-- Two chunks of one byte, the second of which arrives first. -/
def twoChunks : List HandshakeFinishMessage :=
  [⟨1, some ⟨2, 2, 1, 1, [8]⟩⟩, ⟨1, some ⟨2, 2, 0, 1, [7]⟩⟩]

theorem handshakeFinishes_safe_two :
    (handshakeFinishes none twoChunks).Safe ChunkCopy.InBounds ∧
      ∀ m d, (handshakeFinishes none twoChunks).ending = .returned (.inr m) → m.qdbData = some d →
        ∃ first, (twoChunks.filterMap (·.qdbData)).head? = some first ∧ d.chunkSize = first.compressedSize ∧
          d.chunkData.length = d.chunkSize.toNat := by
  refine @handshakeFinishes_safe Dbuf.little twoChunks fun m hm => ?_
  simp only [twoChunks, List.mem_cons, List.not_mem_nil, or_false] at hm
  rcases hm with rfl | rfl
  · exact ⟨[1, 0, 0, 0, 0, 0, 0, 0, 1, 2, 0, 0, 0, 2, 0, 0, 0, 1, 0, 0, 0, 1, 0, 0, 0, 8], [], by decide⟩
  · exact ⟨[1, 0, 0, 0, 0, 0, 0, 0, 1, 2, 0, 0, 0, 2, 0, 0, 0, 0, 0, 0, 0, 1, 0, 0, 0, 7], [], by decide⟩

example : (handshakeFinishes none twoChunks).ending = .returned (.inr ⟨1, some ⟨2, 2, 0, 2, [7, 8]⟩⟩) := by rfl

/-! ## The loop of the handshake -/

/-- The rounds of the handshake that find the messages `rs`, one after another. -/
def handshakeMessages (t : UdpTransport) (sock : SocketInput) : HandshakeState → List Received → RoundResult
  | st, [] => .continue t sock st
  | st, r :: rest =>
    match UdpTransport.handshakeMessage t sock st r with
    | .continue _ _ st => handshakeMessages t sock st rest
    | result => result

/-- What the loop does at the end of a sequence; no assertion fails. -/
def roundOf (t : UdpTransport) (sock : SocketInput) (st : HandshakeState) :
    Ending ChunkFault TransportError (Option QdbChunks ⊕ HandshakeFinishMessage) → RoundResult
  | .returned (.inl c) => .continue t sock { st with chunks := c }
  | .returned (.inr m) => .finished m t sock st.unexpectedMessages
  | .failed e => .returned (.error e) t sock
  | .aborted _ => .waiting

/-- The end of a round without its copies. -/
def ChunkResult.ending : ChunkResult → Ending ChunkFault TransportError (QdbChunks ⊕ HandshakeFinishMessage)
  | .failed e => .failed e
  | .incomplete c => .returned (.inl c)
  | .complete m => .returned (.inr m)

theorem finishCopying_ending {c : QdbChunks} (h : ∀ d ∈ c.chunks, d.Sized) :
    (finishCopying c).ending = (finishChunks c).ending := by
  have hcombine := @combineCopying_ending c.compressedSize c.chunks h (List.replicate c.compressedSize.toNat 0)
  unfold finishCopying finishChunks
  dsimp only
  split
  · rfl
  · cases hres : combineChunks c.compressedSize (List.replicate c.compressedSize.toNat 0) c.chunks with
    | ok combinedData =>
      rw [hres] at hcombine
      rw [bind_ending hcombine]
      rfl
    | error e =>
      rw [hres] at hcombine
      rw [bind_failed hcombine]
      rfl

theorem addChunkCopying_ending {c : Option QdbChunks} (h : ∀ c' ∈ c, c'.Checked) (connectionId : UInt64) {d : QdbData}
    (hd : d.Sized) : (addChunkCopying c connectionId d).ending = (addChunk c connectionId d).ending := by
  unfold addChunkCopying addChunk
  cases c with
  | none =>
    dsimp only
    split
    · rfl
    · exact finishCopying_ending (by simpa using hd)
  | some c =>
    dsimp only
    split
    · rfl
    · split
      · rfl
      · exact finishCopying_ending ((h c rfl).append hd).sized

/-- A message with a chunk, as `handshakeMessage` handles it. -/
theorem handshakeMessages_cons {t : UdpTransport} {sock : SocketInput} {st : HandshakeState} {r : Received}
    {rs : List Received} {msg : HandshakeFinishMessage} {d : QdbData} (hr : r.message = .handshakeFinish msg)
    (hq : msg.qdbData = some d) :
    (∀ e, addChunk st.chunks msg.connectionId d = .failed e →
        handshakeMessages t sock st (r :: rs) = .returned (.error e) t sock) ∧
      (∀ c, addChunk st.chunks msg.connectionId d = .incomplete c →
        handshakeMessages t sock st (r :: rs) = handshakeMessages t sock { st with chunks := some c } rs) ∧
      ∀ m, addChunk st.chunks msg.connectionId d = .complete m →
        handshakeMessages t sock st (r :: rs) = .finished m t sock st.unexpectedMessages := by
  refine ⟨fun e he => ?_, fun c hc => ?_, fun m hm => ?_⟩
  · simp only [handshakeMessages, UdpTransport.handshakeMessage, hr, hq, he]
  · simp only [handshakeMessages, UdpTransport.handshakeMessage, hr, hq, hc]
  · simp only [handshakeMessages, UdpTransport.handshakeMessage, hr, hq, hm]

/-- **The handshake loop** does with a sequence of chunks what the copying functions do. -/
theorem handshakeMessages_eq (t : UdpTransport) (sock : SocketInput) {st : HandshakeState}
    (h : ∀ c ∈ st.chunks, c.Checked) {msgs : List HandshakeFinishMessage} {rs : List Received}
    (hrs : rs.map (·.message) = msgs.map .handshakeFinish) (hmsgs : ∀ m ∈ msgs, ∀ d ∈ m.qdbData, d.Sized) :
    handshakeMessages t sock st rs = roundOf t sock st (handshakeFinishes st.chunks msgs).ending := by
  induction msgs generalizing st rs with
  | nil =>
    obtain rfl : rs = [] := List.map_eq_nil_iff.mp hrs
    rfl
  | cons msg msgs ih =>
    cases rs with
    | nil => cases hrs
    | cons r rs =>
      have hr : r.message = .handshakeFinish msg := (List.cons.inj hrs).1
      have hrest : rs.map (·.message) = msgs.map .handshakeFinish := (List.cons.inj hrs).2
      cases hq : msg.qdbData with
      | none => simp [handshakeMessages, UdpTransport.handshakeMessage, handshakeFinishes, hr, hq, roundOf]
      | some d =>
        have hd : d.Sized := hmsgs msg List.mem_cons_self d hq
        have hending := addChunkCopying_ending h msg.connectionId hd
        obtain ⟨-, hres⟩ := addChunkCopying_safe h msg.connectionId hd
        obtain ⟨hfailed, hincomplete, hcomplete⟩ := @handshakeMessages_cons t sock st r rs msg d hr hq
        unfold handshakeFinishes
        rw [hq]
        dsimp only
        cases hadd : addChunk st.chunks msg.connectionId d with
        | failed e =>
          rw [hadd, ChunkResult.ending] at hending
          rw [hfailed e hadd, bind_failed hending, roundOf]
        | incomplete c =>
          rw [hadd, ChunkResult.ending] at hending
          obtain ⟨hc, -⟩ := hres _ hending
          rw [hincomplete c hadd, bind_ending hending]
          exact ih (by rintro _ ⟨⟩; exact hc) hrest fun m hm => hmsgs m (List.mem_cons_of_mem msg hm)
        | complete m =>
          rw [hadd, ChunkResult.ending] at hending
          rw [hcomplete m hadd, bind_ending hending]
          rfl

end Qunet
