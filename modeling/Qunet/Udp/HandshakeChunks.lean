import Qunet.Lib.Pieces
import Qunet.Message.RoundTrip
import Qunet.Udp.Handshake

/-!
# The database of the handshake

The server cuts the database into nonempty contiguous chunks; they arrive in any order, some of them more than once, in
between other messages.

* `IsChunk`, `chunkBytes` : the finish message with one of the chunks, and its bytes (`chunkBytes_decode`);
* `Collected` : the chunks that `performHandshake` keeps are distinct parts of the database;
* `combineChunks_collected` : combined in any order, all the parts are the database;
* `addChunk_spec` : one more chunk, and whether it was the last one missing;
* `loopEvents` : what the loop receives until it is left;
* **`performHandshake_reassembles`** : the handshake finishes with the last missing chunk, and returns the database.
-/

namespace Qunet
open Lib

/-! ## The chunks the server sends -/

/-- The chunk with the part `p`, the `i`-th of the database. -/
def serverChunk (parts : List Bytes) (uncompressedSize : UInt32) (i : Nat) (p : Bytes) : QdbData where
  uncompressedSize := uncompressedSize
  compressedSize := .ofNat parts.flatten.length
  chunkOffset := .ofNat (offsetOf parts i)
  chunkSize := .ofNat p.length
  chunkData := p

/-- The finish message with the whole database. -/
def wholeDatabase (connectionId : UInt64) (uncompressedSize : UInt32) (database : Bytes) : HandshakeFinishMessage where
  connectionId := connectionId
  qdbData := some
    { uncompressedSize := uncompressedSize, compressedSize := .ofNat database.length, chunkOffset := 0,
      chunkSize := .ofNat database.length, chunkData := database }

/-- `r` is the finish message with the `i`-th part. -/
def IsChunk (connectionId : UInt64) (parts : List Bytes) (i : Nat) (r : Received) : Prop :=
  ∃ uncompressedSize p, parts[i]? = some p ∧
    r.message = .handshakeFinish ⟨connectionId, some (serverChunk parts uncompressedSize i p)⟩

/-- Neither a finish nor a failure message. -/
def IsUnrelated (r : Received) : Prop :=
  (∀ m, r.message ≠ .handshakeFinish m) ∧ ∀ m, r.message ≠ .handshakeFailure m

/-- A database the client takes, in nonempty parts. -/
structure ServerParts (parts : List Bytes) : Prop where
  nonempty : parts ≠ []
  parts_nonempty : ∀ p ∈ parts, p ≠ []
  size_le : parts.flatten.length ≤ 1024 * 1024

section
variable [Dbuf]

/-- The bytes of a chunk, behind the header byte. -/
def chunkBytes (connectionId : UInt64) (present : UInt8) (d : QdbData) : Bytes :=
  Dbuf.u64.write connectionId ++ (present :: (Dbuf.u32.write d.uncompressedSize ++ (Dbuf.u32.write d.compressedSize ++
    (Dbuf.u32.write d.chunkOffset ++ (Dbuf.u32.write d.chunkSize ++ d.chunkData)))))

end

variable {parts : List Bytes} {connectionId : UInt64} {i : Nat} {p : Bytes} {r : Received}

/-! ## Numbers of 32 bits -/

theorem ServerParts.size_lt (h : ServerParts parts) : parts.flatten.length < 2 ^ 32 := by
  have hle := h.size_le
  omega

theorem ServerParts.size_toNat (h : ServerParts parts) :
    (UInt32.ofNat parts.flatten.length).toNat = parts.flatten.length := by
  exact UInt32.toNat_ofNat_of_lt' h.size_lt

theorem ServerParts.offset_toNat (h : ServerParts parts) (hi : parts[i]? = some p) :
    (UInt32.ofNat (offsetOf parts i)).toNat = offsetOf parts i := by
  have hlt := h.size_lt
  have hle := offsetOf_add_le hi
  exact UInt32.toNat_ofNat_of_lt' (show offsetOf parts i < 2 ^ 32 by omega)

theorem ServerParts.chunkSize_toNat (h : ServerParts parts) (hi : parts[i]? = some p) :
    (UInt32.ofNat p.length).toNat = p.length := by
  have hlt := h.size_lt
  have hle := offsetOf_add_le hi
  exact UInt32.toNat_ofNat_of_lt' (show p.length < 2 ^ 32 by omega)

/-! ## The bytes of a chunk -/

section
variable [Dbuf]

theorem chunkBytes_reads (connectionId : UInt64) {present : UInt8} (hpresent : Dbuf.bool present = some true)
    {d : QdbData} (hsize : d.chunkSize.toNat = d.chunkData.length) :
    Reads HandshakeFinishMessage.decode (chunkBytes connectionId present d) ⟨connectionId, some d⟩ := by
  have hbool : Reads readBool [present] true := by
    intro rest
    show (readU8 >>= _) (present :: rest) = _
    rw [Reader.run_bind]
    simp only [readU8, hpresent]
    rfl
  have hdata : Reads (if d.chunkSize > 0 then readBytes d.chunkSize.toNat else pure []) d.chunkData d.chunkData := by
    split
    · rw [hsize]
      exact Reads.take _ _
    · next hzero =>
      have hempty : d.chunkData = [] := by
        apply List.length_eq_zero_iff.mp
        rw [gt_iff_lt, UInt32.lt_iff_toNat_lt] at hzero
        simp at hzero
        omega
      rw [hempty]
      exact Reads.pure []
  have hqdb : Reads QdbData.decode (Dbuf.u32.write d.uncompressedSize ++ (Dbuf.u32.write d.compressedSize ++
      (Dbuf.u32.write d.chunkOffset ++ (Dbuf.u32.write d.chunkSize ++ d.chunkData)))) d := by
    refine (Dbuf.u32.reads _ _).bind ((Dbuf.u32.reads _ _).bind ((Dbuf.u32.reads _ _).bind
      ((Dbuf.u32.reads _ _).bind ?_)))
    exact hdata.bind_pure fun chunkData => (⟨_, _, _, _, chunkData⟩ : QdbData)
  refine (Dbuf.u64.reads _ _).bind (Reads.bind hbool ?_)
  exact (readOptional_some hqdb).bind_pure fun qdbData => (⟨connectionId, qdbData⟩ : HandshakeFinishMessage)

/-- The client decodes the chunk from its bytes. -/
theorem chunkBytes_decode (hs : ServerParts parts) (hp : parts[i]? = some p) (connectionId : UInt64) {present : UInt8}
    (hpresent : Dbuf.bool present = some true) (uncompressedSize : UInt32) {m : QunetMessageMeta}
    (htype : m.type = msgHandshakeFinish)
    (hdata : m.data = chunkBytes connectionId present (serverChunk parts uncompressedSize i p)) :
    decodeWithMeta m = .ok (.handshakeFinish ⟨connectionId, some (serverChunk parts uncompressedSize i p)⟩) := by
  have hreads := chunkBytes_reads connectionId hpresent (d := serverChunk parts uncompressedSize i p)
    (hs.chunkSize_toNat hp) []
  rw [List.append_nil] at hreads
  have hdec : decodeWithMeta m = decodeAs HandshakeFinishMessage.decode .handshakeFinish m.data := by
    unfold decodeWithMeta
    rw [htype]
    rfl
  rw [hdec, decodeAs, hdata, hreads]

end

/-! ## Copying parts into a buffer -/

theorem copyInto_length {buf data : Bytes} {offset : Nat} (h : offset + data.length ≤ buf.length) :
    (copyInto buf offset data).length = buf.length := by
  simp [copyInto]
  omega

/-- Inside the copied bytes, and outside. -/
theorem copyInto_getElem? {buf data : Bytes} {offset : Nat} (h : offset + data.length ≤ buf.length) (k : Nat) :
    (copyInto buf offset data)[k]? = if offset ≤ k ∧ k < offset + data.length then data[k - offset]? else buf[k]? := by
  have hlen : (buf.take offset).length = offset := by
    rw [List.length_take]
    omega
  have hboth : (buf.take offset ++ data).length = offset + data.length := by rw [List.length_append, hlen]
  unfold copyInto
  by_cases hlow : k < offset
  · rw [if_neg (by omega), List.append_assoc, List.getElem?_append_left (by omega), List.getElem?_take_of_lt hlow]
  · by_cases hhigh : k < offset + data.length
    · rw [if_pos (by omega), List.getElem?_append_left (by omega), List.getElem?_append_right (by omega), hlen]
    · rw [if_neg (by omega), List.getElem?_append_right (by omega), hboth, List.getElem?_drop]
      congr 1
      omega

/-! ## What is collected -/

/-- The kept chunks are the parts with the indices `is`. -/
def Collected (parts : List Bytes) (is : List Nat) (chunks : List QdbData) : Prop :=
  List.Forall₂ (fun i c => ∃ uncompressedSize p, parts[i]? = some p ∧ c = serverChunk parts uncompressedSize i p) is
    chunks

theorem Collected.lt {is : List Nat} {chunks : List QdbData} (h : Collected parts is chunks) :
    ∀ i ∈ is, i < parts.length := by
  intro i hi
  induction h with
  | nil => cases hi
  | cons hhead _ ih =>
    obtain ⟨u, p, hp, -⟩ := hhead
    rcases List.mem_cons.mp hi with rfl | hi
    · exact (List.getElem?_eq_some_iff.mp hp).1
    · exact ih hi

/-- The sizes of the chunks add up to the lengths of their parts. -/
theorem Collected.sizeSum {is : List Nat} {chunks : List QdbData} (hs : ServerParts parts)
    (h : Collected parts is chunks) : (chunks.map (·.chunkSize.toNat)).sum = (is.map (lengthOf parts)).sum := by
  induction h with
  | nil => rfl
  | @cons j _ _ _ hhead _ ih =>
    obtain ⟨u, p, hp, rfl⟩ := hhead
    have hsize : lengthOf parts j = (serverChunk parts u j p).chunkSize.toNat := by
      rw [lengthOf, hp]
      exact (hs.chunkSize_toNat hp).symm
    simp [ih, hsize]

/-- A chunk has the offset of a part that is kept exactly if the part is kept. -/
theorem Collected.offset_mem_iff {is : List Nat} {chunks : List QdbData} (hs : ServerParts parts)
    (h : Collected parts is chunks) (hi : parts[i]? = some p) :
    (∃ c ∈ chunks, c.chunkOffset = UInt32.ofNat (offsetOf parts i)) ↔ i ∈ is := by
  induction h with
  | nil => simp
  | @cons j _ _ _ hhead _ ih =>
    obtain ⟨u, q, hq, rfl⟩ := hhead
    have hoffset : UInt32.ofNat (offsetOf parts j) = UInt32.ofNat (offsetOf parts i) ↔ i = j := by
      rw [← UInt32.toNat_inj, hs.offset_toNat hq, hs.offset_toNat hi, eq_comm,
        offsetOf_inj hs.parts_nonempty (List.getElem?_eq_some_iff.mp hi).1 (List.getElem?_eq_some_iff.mp hq).1]
    simp only [List.mem_cons, or_and_right, exists_or, exists_eq_left, ih]
    exact or_congr hoffset Iff.rfl

/-! ## Combining -/

/-- Position `k` of the buffer is the database's, or still has a chunk among `is` that brings it. -/
def Arrives (parts : List Bytes) (is : List Nat) (buf : Bytes) (k : Nat) : Prop :=
  buf[k]? = parts.flatten[k]? ∨ ∃ i ∈ is, offsetOf parts i ≤ k ∧ k < offsetOf parts (i + 1)

/-- Copying one part. -/
theorem Arrives.copy {is : List Nat} {buf : Bytes} {k : Nat} (hp : parts[i]? = some p)
    (hlen : buf.length = parts.flatten.length) (h : Arrives parts (i :: is) buf k) :
    Arrives parts is (copyInto buf (offsetOf parts i) p) k := by
  have hle := offsetOf_add_le hp
  have hnext := offsetOf_succ hp
  have hcopy := copyInto_getElem? (show offsetOf parts i + p.length ≤ buf.length by omega) k
  by_cases hin : offsetOf parts i ≤ k ∧ k < offsetOf parts i + p.length
  · left
    have hpart := getElem?_flatten_offsetOf hp (show k - offsetOf parts i < p.length by omega)
    rw [hcopy, if_pos hin, ← hpart, Nat.add_sub_cancel' hin.1]
  · rcases h with heq | ⟨j, hj, hlow, hhigh⟩
    · left
      rw [hcopy, if_neg hin, heq]
    · rcases List.mem_cons.mp hj with rfl | hj
      · omega
      · exact Or.inr ⟨j, hj, hlow, hhigh⟩

/-- Every kept chunk is within bounds, and a buffer in which every position arrives becomes the database. -/
theorem combineChunks_arrives {is : List Nat} {chunks : List QdbData} (hs : ServerParts parts)
    (h : Collected parts is chunks) (buf : Bytes) (hlen : buf.length = parts.flatten.length)
    (harrives : ∀ k < parts.flatten.length, Arrives parts is buf k) :
    combineChunks (.ofNat parts.flatten.length) buf chunks = .ok parts.flatten := by
  induction h generalizing buf with
  | nil =>
    refine congrArg Except.ok (List.ext_getElem? fun k => ?_)
    by_cases hk : k < parts.flatten.length
    · rcases harrives k hk with heq | ⟨i, hi, -⟩
      · exact heq
      · cases hi
    · rw [List.getElem?_eq_none (by omega), List.getElem?_eq_none (by omega)]
  | @cons j _ _ rest hhead _ ih =>
    obtain ⟨u, p, hp, rfl⟩ := hhead
    have hle := offsetOf_add_le hp
    have hlt := hs.size_lt
    have hoff := hs.offset_toNat hp
    have hsize := hs.chunkSize_toNat hp
    have htotal := hs.size_toNat
    have hbounds : ¬ (UInt32.ofNat (offsetOf parts j) > UInt32.ofNat parts.flatten.length ∨
        UInt32.ofNat (offsetOf parts j) + UInt32.ofNat p.length > UInt32.ofNat parts.flatten.length) := by
      simp only [gt_iff_lt, UInt32.lt_iff_toNat_lt, UInt32.toNat_add, hoff, hsize, htotal]
      omega
    have hrest : combineChunks (.ofNat parts.flatten.length) (copyInto buf (offsetOf parts j) p) rest =
        .ok parts.flatten := by
      apply ih
      · rw [copyInto_length (by omega), hlen]
      · intro k hk
        exact (harrives k hk).copy hp hlen
    rw [← hoff] at hrest
    unfold combineChunks
    split
    · next hout => exact absurd hout hbounds
    · exact hrest

/-- **Combining.** All the parts, in any order. -/
theorem combineChunks_collected {is : List Nat} {chunks : List QdbData} (hs : ServerParts parts)
    (h : Collected parts is chunks) (hall : ∀ i < parts.length, i ∈ is) (buf : Bytes)
    (hlen : buf.length = parts.flatten.length) :
    combineChunks (.ofNat parts.flatten.length) buf chunks = .ok parts.flatten := by
  apply combineChunks_arrives hs h buf hlen
  intro k hk
  rw [← offsetOf_length] at hk
  obtain ⟨i, hi, hin⟩ := exists_part hk
  exact Or.inr ⟨i, hall i hi, hin⟩

/-! ## One more chunk -/

/-- Every part is among `is`. -/
def AllParts (parts : List Bytes) (is : List Nat) : Prop := ∀ i < parts.length, i ∈ is

/-- The chunks `c` that `performHandshake` keeps when it has received exactly the parts `is`. -/
structure ChunksOf (connectionId : UInt64) (parts : List Bytes) (is : List Nat) (c : QdbChunks) : Prop where
  connectionId : c.connectionId = connectionId
  compressedSize : c.compressedSize = .ofNat parts.flatten.length
  kept : ∃ js, Collected parts js c.chunks ∧ js.Nodup ∧ ∀ j, j ∈ js ↔ j ∈ is

/-- The local variables of the loop when it has received exactly the parts `is`. -/
def Keeps (connectionId : UInt64) (parts : List Bytes) (is : List Nat) : Option QdbChunks → Prop
  | none => is = []
  | some c => ChunksOf connectionId parts is c

/-- The check for completeness. -/
theorem finishChunks_spec {is : List Nat} {c : QdbChunks} (hs : ServerParts parts)
    (h : ChunksOf connectionId parts is c) :
    (AllParts parts is ∧
        finishChunks c = .complete (wholeDatabase connectionId c.uncompressedSize parts.flatten)) ∨
      (¬ AllParts parts is ∧ finishChunks c = .incomplete c) := by
  obtain ⟨js, hcoll, hnd, hmem⟩ := h.kept
  have hsum := sum_lengths_eq_iff hs.parts_nonempty hnd hcoll.lt
  have hall : AllParts parts is ↔ ∀ i < parts.length, i ∈ js :=
    forall₂_congr fun i _ => (hmem i).symm
  rw [← hall, ← hcoll.sizeSum hs] at hsum
  unfold finishChunks
  dsimp only
  rw [h.connectionId, h.compressedSize, hs.size_toNat]
  by_cases hcomplete : AllParts parts is
  · refine Or.inl ⟨hcomplete, ?_⟩
    rw [if_neg (not_not.mpr (hsum.mpr hcomplete)),
      combineChunks_collected hs hcoll (hall.mp hcomplete) _ List.length_replicate]
    rfl
  · refine Or.inr ⟨hcomplete, ?_⟩
    rw [if_pos fun heq => hcomplete (hsum.mp heq)]

/-- **One more chunk.** It is the last one missing, or some part is still missing behind it. -/
theorem addChunk_spec {is : List Nat} {c : Option QdbChunks} {u : UInt32} (hs : ServerParts parts)
    (h : Keeps connectionId parts is c) (hmissing : ¬ AllParts parts is) (hp : parts[i]? = some p) :
    (AllParts parts (i :: is) ∧ i ∉ is ∧ ∃ u', addChunk c connectionId (serverChunk parts u i p) =
        .complete (wholeDatabase connectionId u' parts.flatten)) ∨
      (¬ AllParts parts (i :: is) ∧ ∃ c', addChunk c connectionId (serverChunk parts u i p) = .incomplete c' ∧
        ChunksOf connectionId parts (i :: is) c') := by
  have hone : Collected parts [i] [serverChunk parts u i p] := .cons ⟨u, p, hp, rfl⟩ .nil
  cases c with
  | none =>
    cases (h : is = [])
    have hnot : ¬ (serverChunk parts u i p).compressedSize.toNat > 1024 * 1024 := by
      have hle := hs.size_le
      rw [serverChunk, hs.size_toNat]
      omega
    have hfirst : ChunksOf connectionId parts [i] ⟨connectionId, u, .ofNat parts.flatten.length,
        [serverChunk parts u i p]⟩ := ⟨rfl, rfl, [i], hone, List.nodup_singleton i, fun _ => Iff.rfl⟩
    unfold addChunk
    dsimp only
    rw [if_neg hnot]
    rcases finishChunks_spec hs hfirst with ⟨hall, hfin⟩ | ⟨hnotall, hfin⟩
    · exact Or.inl ⟨hall, List.not_mem_nil, u, hfin⟩
    · exact Or.inr ⟨hnotall, _, hfin, hfirst⟩
  | some c =>
    have hc : ChunksOf connectionId parts is c := h
    obtain ⟨js, hcoll, hnd, hmem⟩ := hc.kept
    have hdup : (∃ c' ∈ c.chunks, c'.chunkOffset = (serverChunk parts u i p).chunkOffset) ↔ i ∈ js :=
      hcoll.offset_mem_iff hs hp
    unfold addChunk
    dsimp only
    rw [if_neg (not_not.mpr hc.connectionId.symm)]
    by_cases hi : i ∈ is
    · have hsame : ∀ j, j ∈ js ↔ j ∈ i :: is := by
        intro j
        rw [hmem, List.mem_cons]
        exact ⟨Or.inr, fun hj => hj.elim (fun heq => heq ▸ hi) id⟩
      refine Or.inr ⟨fun hall => hmissing fun j hj => ?_, c, if_pos (hdup.mpr ((hmem i).mpr hi)),
        hc.connectionId, hc.compressedSize, js, hcoll, hnd, hsame⟩
      exact (hmem j).mp ((hsame j).mpr (hall j hj))
    · have hnew : i ∉ js := fun hj => hi ((hmem i).mp hj)
      rw [if_neg fun hex => hnew (hdup.mp hex)]
      have hnext : ChunksOf connectionId parts (i :: is)
          { c with chunks := c.chunks ++ [serverChunk parts u i p] } := by
        refine ⟨hc.connectionId, hc.compressedSize, js ++ [i], List.rel_append hcoll hone, ?_, ?_⟩
        · rw [List.nodup_append_comm]
          exact List.nodup_cons.mpr ⟨hnew, hnd⟩
        · intro j
          rw [List.mem_append, List.mem_singleton, hmem, List.mem_cons, or_comm]
      rcases finishChunks_spec hs hnext with ⟨hall, hfin⟩ | ⟨hnotall, hfin⟩
      · exact Or.inl ⟨hall, hi, _, hfin⟩
      · exact Or.inr ⟨hnotall, _, hfin, hnext⟩

/-! ## The loop -/

/-- A chunk message has one index. -/
theorem IsChunk.unique {j : Nat} (hs : ServerParts parts) (hi : IsChunk connectionId parts i r)
    (hj : IsChunk connectionId parts j r) : i = j := by
  obtain ⟨u, p, hp, hm⟩ := hi
  obtain ⟨v, q, hq, hm'⟩ := hj
  have hoffset : UInt32.ofNat (offsetOf parts i) = UInt32.ofNat (offsetOf parts j) := by
    rw [hm] at hm'
    injection hm' with hm'
    injection hm' with _ hd
    injection hd with hd
    exact congrArg QdbData.chunkOffset hd
  rw [← UInt32.toNat_inj, hs.offset_toNat hp, hs.offset_toNat hq] at hoffset
  exact (offsetOf_inj hs.parts_nonempty (List.getElem?_eq_some_iff.mp hp).1
    (List.getElem?_eq_some_iff.mp hq).1).mp hoffset

/-- What a call of the handshake receives: messages, or the error that ends it. -/
abbrev HandshakeEvent := Except TransportError Received

/-- The part `i` is among the events. -/
def Arrived (connectionId : UInt64) (parts : List Bytes) (events : List HandshakeEvent) (i : Nat) : Prop :=
  ∃ r, .ok r ∈ events ∧ IsChunk connectionId parts i r

/-- The last event is the first one with its part, and every part is among the events. -/
def EndsWithLastMissing (connectionId : UInt64) (parts : List Bytes) (events : List HandshakeEvent) : Prop :=
  (∀ i < parts.length, Arrived connectionId parts events i) ∧
    ∃ before r i, events = before ++ [.ok r] ∧ IsChunk connectionId parts i r ∧
      ¬ Arrived connectionId parts before i

theorem arrived_cons_ok {events : List HandshakeEvent} {j : Nat} :
    Arrived connectionId parts (.ok r :: events) j ↔
      IsChunk connectionId parts j r ∨ Arrived connectionId parts events j := by
  simp only [Arrived, List.mem_cons, Except.ok.injEq, or_and_right, exists_or, exists_eq_left]

theorem not_arrived_error {e : TransportError} {j : Nat} : ¬ Arrived connectionId parts [.error e] j := by
  simp [Arrived]

theorem not_arrived_nil {j : Nat} : ¬ Arrived connectionId parts [] j := by simp [Arrived]

/-- A part that was neither among `is` nor among the events. -/
def StillMissing (connectionId : UInt64) (parts : List Bytes) (is : List Nat) (events : List HandshakeEvent) : Prop :=
  ∃ j < parts.length, j ∉ is ∧ ¬ Arrived connectionId parts events j

theorem stillMissing_of {is : List Nat} {events : List HandshakeEvent} (hmissing : ¬ AllParts parts is)
    (hnone : ∀ j, ¬ Arrived connectionId parts events j) : StillMissing connectionId parts is events := by
  unfold AllParts at hmissing
  push Not at hmissing
  obtain ⟨j, hj, hnot⟩ := hmissing
  exact ⟨j, hj, hnot, hnone j⟩

/-- How the loop ends after the events, when it had received the parts `is` before. -/
def RoundResult.Reassembles (connectionId : UInt64) (parts : List Bytes) (is : List Nat)
    (events : List HandshakeEvent) : RoundResult → Prop
  | .finished m _ _ _ =>
    (∃ u, m = wholeDatabase connectionId u parts.flatten) ∧
      (∀ j < parts.length, j ∈ is ∨ Arrived connectionId parts events j) ∧
      ∃ before r i, events = before ++ [.ok r] ∧ IsChunk connectionId parts i r ∧ i ∉ is ∧
        ¬ Arrived connectionId parts before i
  | .returned result _ _ => (∃ e, result = .error e) ∧ StillMissing connectionId parts is events
  | _ => StillMissing connectionId parts is events

/-- A message that brings the parts `new` goes before the events. -/
theorem StillMissing.cons {is new : List Nat} {events : List HandshakeEvent}
    (hr : ∀ j, IsChunk connectionId parts j r → j ∈ new)
    (h : StillMissing connectionId parts (new ++ is) events) :
    StillMissing connectionId parts is (.ok r :: events) := by
  obtain ⟨j, hj, hnot, hmissing⟩ := h
  rw [List.mem_append, not_or] at hnot
  refine ⟨j, hj, hnot.2, ?_⟩
  rw [arrived_cons_ok]
  exact not_or.mpr ⟨fun hchunk => hnot.1 (hr j hchunk), hmissing⟩

theorem RoundResult.Reassembles.cons {is new : List Nat} {events : List HandshakeEvent} {result : RoundResult}
    (hr : ∀ j, IsChunk connectionId parts j r ↔ j ∈ new)
    (h : result.Reassembles connectionId parts (new ++ is) events) :
    result.Reassembles connectionId parts is (.ok r :: events) := by
  have hcons : StillMissing connectionId parts (new ++ is) events →
      StillMissing connectionId parts is (.ok r :: events) := fun hmissing => hmissing.cons fun j => (hr j).mp
  cases result with
  | «continue» t sock st => exact hcons h
  | returned res t sock => exact ⟨h.1, hcons h.2⟩
  | waiting => exact hcons h
  | finished m t sock u =>
    obtain ⟨hm, hall, before, r', i, rfl, hchunk, hi, hbefore⟩ := h
    rw [List.mem_append, not_or] at hi
    refine ⟨hm, fun j hj => ?_, .ok r :: before, r', i, rfl, hchunk, hi.2, ?_⟩
    · rw [arrived_cons_ok, hr, or_left_comm, ← or_assoc, ← List.mem_append]
      exact hall j hj
    · rw [arrived_cons_ok, hr]
      exact not_or.mpr ⟨hi.1, hbefore⟩

namespace UdpTransport

section
variable [Dbuf]

/-- What a round of the loop receives, or the error it stops with. -/
def roundEvent (handshakeStart : HandshakeStartMessage) (t : UdpTransport) (sock : SocketInput) :
    Poll → Option HandshakeEvent
  | .resend w =>
    match (t.sendHandshakeStart w handshakeStart).1 with
    | .error e => some (.error e)
    | .ok () => none
  | .failed e => some (.error e)
  | .noData => none
  | .ready w => (receiveMessage w t sock).map (·.1)

/-- What the loop receives until it is left. -/
def loopEvents (handshakeStart : HandshakeStartMessage) :
    List Poll → UdpTransport → SocketInput → HandshakeState → List HandshakeEvent
  | [], _, _, _ => []
  | poll :: polls, t, sock, st =>
    (roundEvent handshakeStart t sock poll).toList ++
      match handshakeRound handshakeStart t sock st poll with
      | .continue t sock st => loopEvents handshakeStart polls t sock st
      | _ => []

/-- What `performHandshake` receives. -/
def handshakeEvents (w : SendWorld) (handshakeStart : HandshakeStartMessage) (polls : List Poll) (t : UdpTransport)
    (sock : SocketInput) : List HandshakeEvent :=
  match t.sendHandshakeStart w handshakeStart with
  | (.error e, _, _) => [.error e]
  | (.ok (), _, t) => loopEvents handshakeStart polls t sock {}

/-- A round does nothing but process what it receives. -/
theorem handshakeRound_event (handshakeStart : HandshakeStartMessage) (t : UdpTransport) (sock : SocketInput)
    (st : HandshakeState) (poll : Poll) :
    (∃ r t' sock', roundEvent handshakeStart t sock poll = some (.ok r) ∧
        handshakeRound handshakeStart t sock st poll = handshakeMessage t' sock' st r) ∨
      (∃ e t' sock', roundEvent handshakeStart t sock poll = some (.error e) ∧
        handshakeRound handshakeStart t sock st poll = .returned (.error e) t' sock') ∨
      (roundEvent handshakeStart t sock poll = none ∧
        (handshakeRound handshakeStart t sock st poll = .waiting ∨
          ∃ t' sock', handshakeRound handshakeStart t sock st poll = .continue t' sock' st)) := by
  unfold handshakeRound roundEvent
  cases poll with
  | resend w =>
    dsimp only
    rcases t.sendHandshakeStart w handshakeStart with ⟨e | ⟨⟩, out, t'⟩
    · exact Or.inr (Or.inl ⟨e, t', sock, rfl, rfl⟩)
    · exact Or.inr (Or.inr ⟨rfl, Or.inr ⟨t', sock, rfl⟩⟩)
  | failed e => exact Or.inr (Or.inl ⟨e, t, sock, rfl, rfl⟩)
  | noData => exact Or.inr (Or.inr ⟨rfl, Or.inr ⟨t, sock, rfl⟩⟩)
  | ready w =>
    dsimp only
    rcases receiveMessage w t sock with _ | ⟨e | r, t', sock'⟩
    · exact Or.inr (Or.inr ⟨rfl, Or.inl rfl⟩)
    · exact Or.inr (Or.inl ⟨e, t', sock', rfl, rfl⟩)
    · exact Or.inl ⟨r, t', sock', rfl, rfl⟩

end

/-- An unrelated message is kept for later. -/
theorem handshakeMessage_unrelated (t : UdpTransport) (sock : SocketInput) (st : HandshakeState)
    (h : IsUnrelated r) : ∃ u, handshakeMessage t sock st r = .continue t sock { st with unexpectedMessages := u } := by
  obtain ⟨message, origin⟩ := r
  cases message with
  | handshakeFinish m => exact absurd rfl (h.1 m)
  | handshakeFailure m => exact absurd rfl (h.2 m)
  | _ => exact ⟨_, rfl⟩

/-- One chunk message. -/
theorem handshakeMessage_chunk (t : UdpTransport) (sock : SocketInput) {st : HandshakeState} {is : List Nat}
    (hs : ServerParts parts) (h : Keeps connectionId parts is st.chunks) (hmissing : ¬ AllParts parts is)
    (hr : IsChunk connectionId parts i r) :
    (AllParts parts (i :: is) ∧ i ∉ is ∧ ∃ u, handshakeMessage t sock st r =
        .finished (wholeDatabase connectionId u parts.flatten) t sock st.unexpectedMessages) ∨
      (¬ AllParts parts (i :: is) ∧ ∃ c, ChunksOf connectionId parts (i :: is) c ∧
        handshakeMessage t sock st r = .continue t sock { st with chunks := some c }) := by
  obtain ⟨u, p, hp, hmessage⟩ := hr
  unfold handshakeMessage
  rw [hmessage]
  dsimp only
  rcases addChunk_spec hs h hmissing hp with ⟨hall, hi, u', hadd⟩ | ⟨hnot, c, hadd, hkeeps⟩
  · refine Or.inl ⟨hall, hi, u', ?_⟩
    rw [hadd]
  · refine Or.inr ⟨hnot, c, hkeeps, ?_⟩
    rw [hadd]

/-- Every message is a chunk of the database or unrelated. -/
def OnlyServerChunks (connectionId : UInt64) (parts : List Bytes) (events : List HandshakeEvent) : Prop :=
  ∀ r, .ok r ∈ events → (∃ i, IsChunk connectionId parts i r) ∨ IsUnrelated r

section
variable [Dbuf]

/-- **The loop.** The induction is on the polls; between two rounds some part is still missing. -/
theorem handshakeLoop_reassembles (handshakeStart : HandshakeStartMessage) (hs : ServerParts parts)
    (polls : List Poll) (t : UdpTransport) (sock : SocketInput) (st : HandshakeState) (is : List Nat)
    (hkeeps : Keeps connectionId parts is st.chunks) (hmissing : ¬ AllParts parts is)
    (hevents : OnlyServerChunks connectionId parts (loopEvents handshakeStart polls t sock st)) :
    (handshakeLoop handshakeStart polls t sock st).Reassembles connectionId parts is
      (loopEvents handshakeStart polls t sock st) := by
  induction polls generalizing t sock st is with
  | nil => exact stillMissing_of hmissing fun _ => not_arrived_nil
  | cons poll polls ih =>
    unfold handshakeLoop
    unfold loopEvents at hevents ⊢
    rcases handshakeRound_event handshakeStart t sock st poll with
      ⟨r, t', sock', hevent, hround⟩ | ⟨e, t', sock', hevent, hround⟩ | ⟨hevent, hround | ⟨t', sock', hround⟩⟩
    · rw [hevent, hround] at hevents ⊢
      rw [Option.toList_some, List.singleton_append] at hevents ⊢
      have htail := fun r' hr' => hevents r' (List.mem_cons_of_mem _ hr')
      rcases hevents r (List.mem_cons_self ..) with ⟨i, hchunk⟩ | hunrelated
      · have hindex : ∀ j, IsChunk connectionId parts j r ↔ j ∈ [i] := by
          intro j
          rw [List.mem_singleton]
          exact ⟨fun hj => hj.unique hs hchunk, fun hj => hj ▸ hchunk⟩
        rcases handshakeMessage_chunk t' sock' hs hkeeps hmissing hchunk with
          ⟨hall, hi, u, hmsg⟩ | ⟨hnot, c, hkeeps', hmsg⟩
        · rw [hmsg]
          refine ⟨⟨u, rfl⟩, fun j hj => ?_, [], r, i, rfl, hchunk, hi, not_arrived_nil⟩
          rw [arrived_cons_ok, hindex, List.mem_singleton, or_left_comm, ← or_assoc, ← List.mem_cons]
          exact Or.inl (hall j hj)
        · rw [hmsg] at htail ⊢
          exact .cons hindex (ih t' sock' { st with chunks := some c } (i :: is) hkeeps' hnot htail)
      · have hindex : ∀ j, IsChunk connectionId parts j r ↔ j ∈ [] := by
          intro j
          refine ⟨?_, fun hj => absurd hj List.not_mem_nil⟩
          rintro ⟨u, p, -, hmessage⟩
          exact absurd hmessage (hunrelated.1 _)
        obtain ⟨u, hmsg⟩ := handshakeMessage_unrelated t' sock' st hunrelated
        rw [hmsg] at htail ⊢
        exact .cons hindex (ih t' sock' { st with unexpectedMessages := u } is hkeeps hmissing htail)
    · rw [hevent, hround]
      exact ⟨⟨e, rfl⟩, stillMissing_of hmissing fun _ => not_arrived_error⟩
    · rw [hevent, hround]
      exact stillMissing_of hmissing fun _ => not_arrived_nil
    · rw [hevent, hround] at hevents ⊢
      exact ih t' sock' st is hkeeps hmissing hevents

/-- The handshake has returned the database, or some part has not arrived. -/
theorem performHandshake_outcome (w : SendWorld) (handshakeStart : HandshakeStartMessage) (polls : List Poll)
    (t : UdpTransport) (sock : SocketInput) (hs : ServerParts parts)
    (hevents : OnlyServerChunks connectionId parts (handshakeEvents w handshakeStart polls t sock)) :
    ((∃ u t' sock', performHandshake w handshakeStart polls t sock =
          some (.ok (.handshakeFinish (wholeDatabase connectionId u parts.flatten)), t', sock')) ∧
        EndsWithLastMissing connectionId parts (handshakeEvents w handshakeStart polls t sock)) ∨
      ((∀ m t' sock', performHandshake w handshakeStart polls t sock ≠ some (.ok m, t', sock')) ∧
        StillMissing connectionId parts [] (handshakeEvents w handshakeStart polls t sock)) := by
  have hnone : ¬ AllParts parts [] := fun hall =>
    absurd (hall 0 (List.length_pos_iff.mpr hs.nonempty)) List.not_mem_nil
  unfold performHandshake
  unfold handshakeEvents at hevents ⊢
  rcases hsend : t.sendHandshakeStart w handshakeStart with ⟨e | ⟨⟩, out, t₀⟩
  · exact Or.inr ⟨by simp, stillMissing_of hnone fun _ => not_arrived_error⟩
  · rw [hsend] at hevents
    dsimp only at hevents ⊢
    have hloop := handshakeLoop_reassembles handshakeStart hs polls t₀ sock {} [] rfl hnone hevents
    generalize loopEvents handshakeStart polls t₀ sock {} = events at hloop
    cases hresult : handshakeLoop handshakeStart polls t₀ sock {} with
    | «continue» t' sock' st =>
      rw [hresult] at hloop
      exact Or.inr ⟨by simp, hloop⟩
    | waiting =>
      rw [hresult] at hloop
      exact Or.inr ⟨by simp, hloop⟩
    | returned r t' sock' =>
      rw [hresult] at hloop
      obtain ⟨⟨e, rfl⟩, hstill⟩ := hloop
      exact Or.inr ⟨by simp, hstill⟩
    | finished m t' sock' unexpectedMessages =>
      rw [hresult] at hloop
      obtain ⟨⟨u, rfl⟩, hall, before, r, i, hsplit, hchunk, -, hfirst⟩ := hloop
      refine Or.inl ⟨⟨u, t'.keepUnexpected unexpectedMessages, sock', rfl⟩, fun j hj => ?_, before, r, i, hsplit,
        hchunk, hfirst⟩
      exact (hall j hj).resolve_left List.not_mem_nil

/-- **The handshake.** Among any unrelated messages and repetitions, in any order, it finishes with the last missing
chunk and returns the database under its connection id; before that it goes on, unless it stops with an error. -/
theorem performHandshake_reassembles (w : SendWorld) (handshakeStart : HandshakeStartMessage) (polls : List Poll)
    (t : UdpTransport) (sock : SocketInput) (parts : List Bytes) (connectionId : UInt64) (hs : ServerParts parts)
    (hevents : OnlyServerChunks connectionId parts (handshakeEvents w handshakeStart polls t sock)) :
    ((∃ m t' sock', performHandshake w handshakeStart polls t sock = some (.ok m, t', sock')) ↔
        ∀ i < parts.length, Arrived connectionId parts (handshakeEvents w handshakeStart polls t sock) i) ∧
      (∀ m t' sock', performHandshake w handshakeStart polls t sock = some (.ok m, t', sock') →
        (∃ uncompressedSize, m = .handshakeFinish (wholeDatabase connectionId uncompressedSize parts.flatten)) ∧
          EndsWithLastMissing connectionId parts (handshakeEvents w handshakeStart polls t sock)) ∧
      ∀ i p uncompressedSize present m, parts[i]? = some p → Dbuf.bool present = some true →
        m.type = msgHandshakeFinish →
        m.data = chunkBytes connectionId present (serverChunk parts uncompressedSize i p) →
        decodeWithMeta m = .ok (.handshakeFinish ⟨connectionId, some (serverChunk parts uncompressedSize i p)⟩) := by
  refine ⟨?_, ?_, fun i p u present m hp hpresent htype hdata =>
    chunkBytes_decode hs hp connectionId hpresent u htype hdata⟩
  · rcases performHandshake_outcome w handshakeStart polls t sock hs hevents with
      ⟨⟨u, t', sock', hfinish⟩, hends⟩ | ⟨hnever, j, hj, -, hnot⟩
    · exact ⟨fun _ => hends.1, fun _ => ⟨_, t', sock', hfinish⟩⟩
    · refine ⟨?_, fun hall => absurd (hall j hj) hnot⟩
      rintro ⟨m, t', sock', hfinish⟩
      exact absurd hfinish (hnever m t' sock')
  · intro m t' sock' hreturns
    rcases performHandshake_outcome w handshakeStart polls t sock hs hevents with
      ⟨⟨u, t₁, sock₁, hfinish⟩, hends⟩ | ⟨hnever, -⟩
    · rw [hfinish] at hreturns
      cases hreturns
      exact ⟨⟨u, rfl⟩, hends⟩
    · exact absurd hreturns (hnever m t' sock')

end

/-! ## A database of three bytes in two parts -/

def threeBytes : List Bytes := [[1, 2], [3]]

theorem threeBytes_parts : ServerParts threeBytes := ⟨by decide, by decide, by decide⟩

/-- The datagram with the chunk of one of the parts. -/
def chunkDatagram (i : Nat) (p : Bytes) : Bytes :=
  msgHandshakeFinish :: @chunkBytes Dbuf.little 5 1 (serverChunk threeBytes 9 i p)

/-- The second part arrives first, and twice. -/
def threeBytesInput : SocketInput :=
  [(idleWorld, .datagram (chunkDatagram 1 [3])), (idleWorld, .datagram [msgReconnectSuccess]),
    (idleWorld, .datagram (chunkDatagram 1 [3])), (idleWorld, .datagram (chunkDatagram 0 [1, 2]))]

theorem performHandshake_threeBytes :
    ∃ t', @performHandshake Dbuf.little openLink plainStart (List.replicate 4 (.ready idleWorld)) {}
        threeBytesInput = some (.ok (.handshakeFinish (wholeDatabase 5 9 [1, 2, 3])), t', []) ∧
      EndsWithLastMissing 5 threeBytes (@handshakeEvents Dbuf.little openLink plainStart
        (List.replicate 4 (.ready idleWorld)) {} threeBytesInput) := by
  have hevents : OnlyServerChunks 5 threeBytes (@handshakeEvents Dbuf.little openLink plainStart
      (List.replicate 4 (.ready idleWorld)) {} threeBytesInput) := by
    have hlist : @handshakeEvents Dbuf.little openLink plainStart (List.replicate 4 (.ready idleWorld)) {}
      threeBytesInput = [.ok _, .ok _, .ok _, .ok _] := rfl
    intro r hr
    simp only [hlist, List.mem_cons, Except.ok.injEq, List.not_mem_nil, or_false] at hr
    rcases hr with rfl | rfl | rfl | rfl
    · exact Or.inl ⟨1, 9, [3], rfl, rfl⟩
    · exact Or.inr ⟨nofun, nofun⟩
    · exact Or.inl ⟨1, 9, [3], rfl, rfl⟩
    · exact Or.inl ⟨0, 9, [1, 2], rfl, rfl⟩
  exact ⟨_, rfl, ((@performHandshake_reassembles Dbuf.little openLink plainStart (List.replicate 4 (.ready idleWorld))
    {} threeBytesInput threeBytes 5 threeBytes_parts hevents).2.1 _ _ _ rfl).2⟩

end UdpTransport

end Qunet
