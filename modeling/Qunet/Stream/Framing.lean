import Qunet.Stream.Transport
import Qunet.Udp.Sending

/-!
# Frames on a stream

A stream is a concatenation of frames, each a length and a body. However it is split into reads, and wherever the
receive buffer wraps around, the calls of `receiveMessage` return what the bodies decode to.

* `Framed` : what the buffer holds and what the socket still delivers are the frames of some bodies;
* `receiveLoop_outcome` : one call takes the frames up to the first one with a body;
* `receiveCalls_frames` : the calls, one after the other;
* `streamFrame_iff` : when a sent message is such a frame;
* **`streamFraming_iff`** : both directions.
-/

namespace Qunet
open Lib

section
variable [Dbuf]

def frame (body : Bytes) : Bytes := Dbuf.u32.write (UInt32.ofNat body.length) ++ body

def frames (bodies : List Bytes) : Bytes := bodies.flatMap frame

/-- What a frame's body decodes to. -/
def decodeFrame (w : World) (t : BaseTransport) (body : Bytes) : Option (Except TransportError QunetMessage) :=
  (decodeBody w t (body, []) body.length).map (·.1)

variable {β : Type} [ByteQueue β]

/-- The bytes that were not taken yet: those in the buffer, and those that the socket still delivers. -/
def StreamTransport.pending (s : StreamTransport β) : Bytes := ByteQueue.contents s.recvBuffer ++ s.stream.bytes

/-- Every read returns some bytes. -/
def StreamInput.Delivers (stream : StreamInput) : Prop := ∀ r ∈ stream, ∃ bs, r = .bytes bs ∧ bs ≠ []

/-- The frames of `bodies` are pending. -/
structure Framed (s : StreamTransport β) (bodies : List Bytes) : Prop where
  pending : s.pending = frames bodies
  lengths : ∀ body ∈ bodies, body.length < 2 ^ 32
  delivers : s.stream.Delivers

/-- The results of the calls of `receiveMessage`, until one waits for the socket. -/
def receiveCalls : List World → StreamTransport β → List (Except TransportError QunetMessage)
  | [], _ => []
  | w :: ws, s =>
    match receiveMessage w s with
    | .returned r s => r :: receiveCalls ws s
    | _ => []

end

/-- Statistics apart, two transports decode alike. -/
structure SameDecoder (t t' : BaseTransport) : Prop where
  limit : t'.messageSizeLimit = t.messageSizeLimit
  ready : t'.zstdReady = t.zstdReady
  dict : t'.zstdDict = t.zstdDict

theorem SameDecoder.refl (t : BaseTransport) : SameDecoder t t := ⟨rfl, rfl, rfl⟩

theorem SameDecoder.trans {t t' t'' : BaseTransport} (h : SameDecoder t t') (h' : SameDecoder t' t'') :
    SameDecoder t t'' := ⟨h'.limit.trans h.limit, h'.ready.trans h.ready, h'.dict.trans h.dict⟩

/-! ## Reads -/

theorem StreamInput.receive_ok {room : Nat} {stream stream' : StreamInput} {bs : Bytes}
    (h : stream.receive room = some (.ok bs, stream')) :
    stream.bytes = bs ++ stream'.bytes ∧ bs.length ≤ room := by
  unfold receive at h
  split at h
  · cases h
  · cases h
  · next bytes rest =>
    split at h
    · next hle =>
      cases h
      exact ⟨rfl, hle⟩
    · cases h
      refine ⟨?_, List.length_take_le _ _⟩
      simp [StreamInput.bytes, ← List.append_assoc]

/-- A read that has room returns some bytes, as long as the socket delivers some. -/
theorem StreamInput.Delivers.reads {stream : StreamInput} (h : stream.Delivers) (hne : stream.bytes ≠ []) {room : Nat}
    (hroom : 0 < room) :
    ∃ b bs stream', stream.receive room = some (.ok (b :: bs), stream') ∧ stream'.Delivers := by
  cases stream with
  | nil => exact absurd rfl hne
  | cons r rest =>
    obtain ⟨bytes, rfl, hbytes⟩ := h r (List.mem_cons_self ..)
    have hrest : StreamInput.Delivers rest := fun r hr => h r (List.mem_cons_of_mem _ hr)
    obtain ⟨b, bs, rfl⟩ := List.exists_cons_of_ne_nil hbytes
    simp only [StreamInput.receive]
    split
    · exact ⟨b, bs, rest, rfl, hrest⟩
    · next hlong =>
      obtain ⟨room, rfl⟩ := Nat.exists_eq_add_of_lt hroom
      refine ⟨b, bs.take _, _, rfl, fun r hr => ?_⟩
      rcases List.mem_cons.mp hr with rfl | hr
      · refine ⟨_, rfl, ?_⟩
        rw [← List.length_pos_iff, List.length_drop]
        omega
      · exact hrest r hr

section
variable {β : Type} [ByteQueue β]

@[simp] theorem contents_makeRoom (buffer : β) : ByteQueue.contents (makeRoom buffer) = ByteQueue.contents buffer := by
  unfold makeRoom
  split <;> simp

theorem writeWindow_makeRoom (buffer : β) : 0 < ByteQueue.writeWindow (makeRoom buffer) := by
  unfold makeRoom
  split
  · exact ByteQueue.writeWindow_reserve _ _ (by decide)
  · next h =>
    unfold wantedWindow at h
    omega

/-! ## One round -/

/-- A read moves bytes into the buffer. -/
theorem pending_read {s : StreamTransport β} {bs : Bytes} {stream : StreamInput}
    (hreceive : s.stream.receive (ByteQueue.writeWindow (makeRoom s.recvBuffer)) = some (.ok bs, stream))
    (tracker : StatTracker) :
    StreamTransport.pending
        { s with recvBuffer := ByteQueue.advanceWrite bs (makeRoom s.recvBuffer), stream, tracker } =
      s.pending := by
  obtain ⟨hbytes, hle⟩ := StreamInput.receive_ok hreceive
  have hcontents := ByteQueue.contents_advanceWrite _ _ hle
  rw [contents_makeRoom] at hcontents
  simp only [StreamTransport.pending, hcontents, hbytes, List.append_assoc]

theorem rounds_read {s : StreamTransport β} {b : UInt8} {bs : Bytes} {stream : StreamInput}
    (hreceive : s.stream.receive (ByteQueue.writeWindow (makeRoom s.recvBuffer)) = some (.ok (b :: bs), stream))
    (tracker : StatTracker) :
    StreamTransport.rounds
        { s with recvBuffer := ByteQueue.advanceWrite (b :: bs) (makeRoom s.recvBuffer), stream, tracker } <
      s.rounds := by
  obtain ⟨hbytes, hle⟩ := StreamInput.receive_ok hreceive
  have hcontents := ByteQueue.contents_advanceWrite _ _ hle
  rw [contents_makeRoom] at hcontents
  simp only [StreamTransport.rounds, ByteQueue.size, hcontents, hbytes, List.length_append, List.length_cons]
  omega

/-- Waiting moves some bytes from the socket into the buffer, as long as the socket delivers some. -/
theorem waitForData_delivers (w : World) {s : StreamTransport β} (hdel : s.stream.Delivers)
    (hne : s.stream.bytes ≠ []) :
    waitForData w s = .returned (.error (.custom .noBufferSpace)) s ∨
      ∃ s', waitForData w s = .continue s' ∧ s'.pending = s.pending ∧ s'.stream.Delivers ∧ s'.rounds < s.rounds ∧
        SameDecoder s.toBaseTransport s'.toBaseTransport := by
  unfold waitForData
  dsimp only
  split
  · exact Or.inl rfl
  · obtain ⟨b, bs, stream', hreceive, hdel'⟩ := hdel.reads hne (writeWindow_makeRoom s.recvBuffer)
    rw [hreceive]
    exact Or.inr ⟨_, rfl, pending_read hreceive _, hdel', rounds_read hreceive _, ⟨rfl, rfl, rfl⟩⟩

/-- Without anything left to deliver, the round waits. -/
theorem waitForData_empty (w : World) {s : StreamTransport β} (hdel : s.stream.Delivers) (hempty : s.stream.bytes = []) :
    waitForData w s = .returned (.error (.custom .noBufferSpace)) s ∨ ∃ s', waitForData w s = .waiting s' := by
  have hnil : s.stream = [] := by
    cases hs : s.stream with
    | nil => rfl
    | cons r rest =>
      rw [hs] at hdel hempty
      obtain ⟨bs, rfl, hbs⟩ := hdel r (List.mem_cons_self ..)
      simp only [StreamInput.bytes, List.flatMap_cons, List.append_eq_nil_iff] at hempty
      exact absurd hempty.1 hbs
  unfold waitForData
  split
  · exact Or.inl rfl
  · rw [hnil]
    exact Or.inr ⟨_, rfl⟩

/-! ## The front of the buffer -/

theorem StreamTransport.pending_length (s : StreamTransport β) :
    s.pending.length = ByteQueue.size s.recvBuffer + s.stream.bytes.length := List.length_append

/-- What the buffer holds is what is pending, as far as it reaches. -/
theorem take_pending {s : StreamTransport β} {n : Nat} (h : n ≤ ByteQueue.size s.recvBuffer) :
    (ByteQueue.contents s.recvBuffer).take n = s.pending.take n := (List.take_append_of_le_length h).symm

theorem pending_skip {s : StreamTransport β} {n : Nat} (h : n ≤ ByteQueue.size s.recvBuffer) (t : BaseTransport) :
    StreamTransport.pending { s with toBaseTransport := t, recvBuffer := ByteQueue.skip n s.recvBuffer } =
      s.pending.drop n := by
  simp only [StreamTransport.pending, ByteQueue.contents_skip n _ h]
  exact (List.drop_append_of_le_length h).symm

end

section
variable [Dbuf]

theorem frames_cons (body : Bytes) (bodies : List Bytes) :
    frames (body :: bodies) = Dbuf.u32.write (UInt32.ofNat body.length) ++ (body ++ frames bodies) := by
  simp [frames, frame]

theorem frames_length_cons (body : Bytes) (bodies : List Bytes) :
    (frames (body :: bodies)).length = 4 + body.length + (frames bodies).length := by
  simp [frames_cons]
  omega

theorem frame_ne_nil (body : Bytes) : frame body ≠ [] := by
  apply List.ne_nil_of_length_pos
  rw [frame, List.length_append, Dbuf.u32.write_length]
  omega

theorem frames_concat (bodies : List Bytes) (body : Bytes) :
    frames (bodies ++ [body]) = frames bodies ++ frame body := by
  rw [frames, List.flatMap_append, List.flatMap_singleton]
  rfl

variable {β : Type} [ByteQueue β]

/-- The announced length is that of the first body. -/
theorem Framed.exists_announced {s : StreamTransport β} {bodies : List Bytes} {length : Nat} (h : Framed s bodies)
    (hannounces : Announces s length) : ∃ body rest, bodies = body :: rest ∧ body.length = length := by
  obtain ⟨hsize, rfl⟩ := hannounces
  cases bodies with
  | nil =>
    have hlength := s.pending_length
    rw [h.pending, frames, List.flatMap_nil, List.length_nil] at hlength
    omega
  | cons body rest =>
    refine ⟨body, rest, rfl, ?_⟩
    have hfront : ByteQueue.front 4 s.recvBuffer = Dbuf.u32.write (UInt32.ofNat body.length) := by
      rw [ByteQueue.front_eq hsize, take_pending hsize, h.pending, frames_cons]
      exact List.take_left' (Dbuf.u32.write_length _)
    rw [announcedLength, hfront, Dbuf.u32.read_write]
    exact (UInt32.toNat_ofNat_of_lt' (h.lengths body (List.mem_cons_self ..))).symm

/-- When everything is in the buffer and it holds no whole frame, there are no more frames. -/
theorem Framed.bodies_of_needsData {s : StreamTransport β} {bodies : List Bytes} (h : Framed s bodies)
    (hneeds : NeedsData s) (hempty : s.stream.bytes = []) : bodies = [] := by
  have hlength := s.pending_length
  rw [h.pending, hempty, List.length_nil] at hlength
  rcases hneeds with hfour | ⟨length, hannounces, -, -, hshort⟩
  · cases bodies with
    | nil => rfl
    | cons body rest =>
      rw [frames_length_cons] at hlength
      omega
  · obtain ⟨body, rest, rfl, hbody⟩ := h.exists_announced hannounces
    rw [frames_length_cons] at hlength
    omega

/-! ## One call -/

omit [Dbuf] in
theorem combinedSpans_eq (wrpread : Bytes × Bytes) : combinedSpans wrpread = wrpread.1 ++ wrpread.2 := by
  unfold combinedSpans
  split
  · next h => rw [List.isEmpty_iff.mp h, List.append_nil]
  · rfl

/-- The two spans are decoded like one. -/
theorem decodeBody_spans (w : World) (t : BaseTransport) (wrpread : Bytes × Bytes) (length : Nat) :
    decodeBody w t wrpread length = decodeBody w t (wrpread.1 ++ wrpread.2, []) length := by
  unfold decodeBody
  rw [combinedSpans_eq, combinedSpans_eq, List.append_nil]

/-- Decoding changes the statistics only, and does not read them. -/
theorem decodeBody_decoder {w : World} {t t' : BaseTransport} (h : SameDecoder t t') (body : Bytes × Bytes)
    (length : Nat) :
    (decodeBody w t' body length).map (·.1) = (decodeBody w t body length).map (·.1) := by
  obtain ⟨limit, ready, dict, tracker⟩ := t
  obtain ⟨limit', ready', dict', tracker'⟩ := t'
  obtain ⟨hl, hr, hd⟩ := h
  dsimp only at hl hr hd
  subst hl hr hd
  unfold decodeBody
  rcases decodeStreamMeta (combinedSpans body) with _ | e | m
  · rfl
  · rfl
  · dsimp only
    split
    · rcases decodeWithMeta m with e | msg <;> rfl
    · rfl

theorem decodeBody_sameDecoder {w : World} {t t' : BaseTransport} {body : Bytes × Bytes} {length : Nat}
    {r : Except TransportError QunetMessage} (h : decodeBody w t body length = some (r, t')) : SameDecoder t t' := by
  unfold decodeBody at h
  rcases hm : decodeStreamMeta (combinedSpans body) with _ | e | m
  · rw [hm] at h
    cases h
  · rw [hm] at h
    cases h
    exact .refl t
  · rw [hm] at h
    dsimp only at h
    split at h
    · rcases hd : decodeWithMeta m with e | msg
      · rw [hd] at h
        cases h
        exact .refl t
      · rw [hd] at h
        cases h
        exact ⟨rfl, rfl, rfl⟩
    · cases h
      exact ⟨rfl, rfl, rfl⟩

theorem decodeFrame_isSome (w : World) (t : BaseTransport) {body : Bytes} (hne : body ≠ []) :
    ∃ r t', decodeBody w t (body, []) body.length = some (r, t') := by
  obtain ⟨b, rest, rfl⟩ := List.exists_cons_of_ne_nil hne
  have hdata : decodeStreamMeta (combinedSpans (b :: rest, [])) = some (decodeMeta b rest false) := rfl
  unfold decodeBody
  rw [hdata]
  rcases decodeMeta b rest false with e | m
  · exact ⟨_, _, rfl⟩
  · dsimp only
    split
    · rcases decodeWithMeta m with e | msg
      · exact ⟨_, _, rfl⟩
      · exact ⟨_, _, rfl⟩
    · exact ⟨_, _, rfl⟩

/-- A complete frame is decoded and taken. -/
theorem takeFrame_framed (w : World) {s : StreamTransport β} {body : Bytes} {bodies : List Bytes}
    (h : Framed s (body :: bodies)) (hne : body ≠ []) (hsize : 4 + body.length ≤ ByteQueue.size s.recvBuffer) :
    ∃ r s', takeFrame w s body.length = .returned r s' ∧ decodeFrame w s.toBaseTransport body = some r ∧
      Framed s' bodies ∧ SameDecoder s.toBaseTransport s'.toBaseTransport := by
  have hskip : body.length ≤ ByteQueue.size (ByteQueue.skip 4 s.recvBuffer) := by
    rw [ByteQueue.size_skip (by omega)]
    omega
  let behind : StreamTransport β := { s with recvBuffer := ByteQueue.skip 4 s.recvBuffer }
  have hpending : behind.pending = body ++ frames bodies := by
    have hdrop := pending_skip (s := s) (show 4 ≤ ByteQueue.size s.recvBuffer by omega) s.toBaseTransport
    rwa [h.pending, frames_cons, List.drop_left' (Dbuf.u32.write_length _)] at hdrop
  have hbehind : (ByteQueue.contents behind.recvBuffer).take body.length = body := by
    rw [take_pending hskip, hpending, List.take_left]
  have hspans := ByteQueue.peek_append body.length (ByteQueue.skip 4 s.recvBuffer) hskip
  rw [hbehind] at hspans
  obtain ⟨r, t', hdec⟩ := decodeFrame_isSome w s.toBaseTransport hne
  have hbody := decodeBody_spans w s.toBaseTransport (ByteQueue.peek body.length (ByteQueue.skip 4 s.recvBuffer))
    body.length
  rw [hspans, hdec] at hbody
  unfold takeFrame
  dsimp only
  rw [hbody]
  refine ⟨r, _, rfl, by rw [decodeFrame, hdec]; rfl, ⟨?_, ?_, h.delivers⟩, decodeBody_sameDecoder hdec⟩
  · rw [pending_skip (s := behind) hskip, hpending, List.drop_left]
  · exact fun b hb => h.lengths b (List.mem_cons_of_mem _ hb)

/-- The bodies that `receiveMessage` returns something for. -/
def nonEmpty (bodies : List Bytes) : List Bytes := bodies.filter fun body => !body.isEmpty

/-- What a call does when the frames of `bodies` are pending: it fails for lack of space or because of a length, it
waits if every frame is empty, and else it returns what the first frame with a body decodes to. -/
def FrameOutcome (w : World) (s : StreamTransport β) (bodies : List Bytes) (round : StreamRound β) : Prop :=
  (∃ e s', round = .returned (.error e) s' ∧ (e = .custom .noBufferSpace ∨ e = .custom .messageTooLong)) ∨
    (nonEmpty bodies = [] ∧ ∃ s', round = .waiting s') ∨
    ∃ body rest r s', nonEmpty bodies = body :: nonEmpty rest ∧ round = .returned r s' ∧
      decodeFrame w s.toBaseTransport body = some r ∧ Framed s' rest ∧
      SameDecoder s.toBaseTransport s'.toBaseTransport

theorem FrameOutcome.congr {w : World} {s s' : StreamTransport β} {bodies : List Bytes} {round : StreamRound β}
    (hsame : SameDecoder s.toBaseTransport s'.toBaseTransport) (h : FrameOutcome w s' bodies round) :
    FrameOutcome w s bodies round := by
  rcases h with h | h | ⟨body, rest, r, s₁, hbodies, hround, hdec, hframed, hsame'⟩
  · exact Or.inl h
  · exact Or.inr (Or.inl h)
  · refine Or.inr (Or.inr ⟨body, rest, r, s₁, hbodies, hround, ?_, hframed, hsame.trans hsame'⟩)
    rw [← hdec]
    exact (decodeBody_decoder hsame _ _).symm

/-- An empty frame is passed over. -/
theorem FrameOutcome.cons_empty {w : World} {s : StreamTransport β} {bodies : List Bytes} {round : StreamRound β}
    (h : FrameOutcome w s bodies round) : FrameOutcome w s ([] :: bodies) round := h

/-- **One call.** The induction is on the rounds; between two of them the frames of some of the bodies are pending. -/
theorem receiveLoop_outcome (w : World) (fuel : Nat) (s : StreamTransport β) (bodies : List Bytes)
    (hfuel : s.rounds < fuel) (h : Framed s bodies) : FrameOutcome w s bodies (receiveLoop w fuel s) := by
  induction fuel generalizing s bodies with
  | zero => omega
  | succ fuel ih =>
    unfold receiveLoop
    have hlength := s.pending_length
    rw [h.pending] at hlength
    rcases receiveRound_kinds s with hneeds | hzero | ⟨length, hannounces, hpos, hkind⟩
    · rw [receiveRound_needsData w hneeds]
      by_cases hempty : s.stream.bytes = []
      · have hnone := h.bodies_of_needsData hneeds hempty
        rcases waitForData_empty w h.delivers hempty with hw | ⟨s', hw⟩
        · rw [hw]
          exact Or.inl ⟨_, s, rfl, Or.inl rfl⟩
        · rw [hw, hnone]
          exact Or.inr (Or.inl ⟨rfl, s', rfl⟩)
      · rcases waitForData_delivers w h.delivers hempty with hw | ⟨s', hw, hpending, hdel, hrounds, hsame⟩
        · rw [hw]
          exact Or.inl ⟨_, s, rfl, Or.inl rfl⟩
        · rw [hw]
          exact .congr hsame (ih s' bodies (by omega) ⟨hpending.trans h.pending, h.lengths, hdel⟩)
    · obtain ⟨body, rest, rfl, hbody⟩ := h.exists_announced hzero
      rw [List.length_eq_zero_iff] at hbody
      subst hbody
      have hskip := pending_skip (s := s) hzero.1 s.toBaseTransport
      have hsize := ByteQueue.size_skip hzero.1
      rw [h.pending, frames_cons, List.drop_left' (Dbuf.u32.write_length _), List.nil_append] at hskip
      have hrest : ∀ b ∈ rest, b.length < 2 ^ 32 := fun b hb => h.lengths b (List.mem_cons_of_mem _ hb)
      rw [receiveRound_empty w hzero]
      apply FrameOutcome.cons_empty
      refine .congr (.refl _) (ih _ rest ?_ ⟨hskip, hrest, h.delivers⟩)
      have hfour := hzero.1
      simp only [StreamTransport.rounds, hsize] at hfuel ⊢
      omega
    · obtain ⟨body, rest, rfl, rfl⟩ := h.exists_announced hannounces
      rcases hkind with hlimit | ⟨hlimit, hsize⟩
      · rw [receiveRound_tooLong w hannounces hpos hlimit]
        exact Or.inl ⟨_, s, rfl, Or.inr rfl⟩
      · have hne : body ≠ [] := fun hnil => hpos (hnil ▸ rfl)
        obtain ⟨r, s', htake, hdec, hframed, hsame⟩ := takeFrame_framed w h hne hsize
        rw [receiveRound_complete w hannounces hpos hlimit hsize, htake]
        have hfilter : nonEmpty (body :: rest) = body :: nonEmpty rest := by
          simp [nonEmpty, hne]
        exact Or.inr (Or.inr ⟨body, rest, r, s', hfilter, rfl, hdec, hframed, hsame⟩)

/-! ## The calls, one after the other -/

/-- **The calls.** As long as none of them fails for lack of space or because of a length, they return what the bodies
decode to, in order. -/
theorem receiveCalls_frames (ws : List World) (s : StreamTransport β) (bodies : List Bytes) (h : Framed s bodies)
    (hno : ∀ r ∈ receiveCalls ws s, r ≠ .error (.custom .noBufferSpace) ∧ r ≠ .error (.custom .messageTooLong)) :
    (receiveCalls ws s).map some =
      List.zipWith (fun w body => decodeFrame w s.toBaseTransport body) ws (nonEmpty bodies) := by
  induction ws generalizing s bodies with
  | nil => rfl
  | cons w ws ih =>
    unfold receiveCalls at hno ⊢
    rcases receiveLoop_outcome w _ s bodies (Nat.lt_succ_self _) h with
      ⟨e, s', hround, he⟩ | ⟨hnone, s', hround⟩ | ⟨body, rest, r, s', hbodies, hround, hdec, hframed, hsame⟩
    · change receiveMessage w s = _ at hround
      rw [hround] at hno
      have hfirst := hno _ (List.mem_cons_self ..)
      rcases he with rfl | rfl
      · exact absurd rfl hfirst.1
      · exact absurd rfl hfirst.2
    · change receiveMessage w s = _ at hround
      rw [hround, hnone]
      rfl
    · change receiveMessage w s = _ at hround
      rw [hround] at hno ⊢
      rw [hbodies]
      have hrest := ih s' rest hframed fun r hr => hno r (List.mem_cons_of_mem _ hr)
      have hsame : (fun w body => decodeFrame w s'.toBaseTransport body) =
          fun w body => decodeFrame w s.toBaseTransport body := by
        funext w body
        exact decodeBody_decoder hsame _ _
      rw [hsame] at hrest
      simp [hdec, hrest]

/-! ## Sending -/

/-- The sent bytes are a frame, whose body is read back as the message. -/
def SentAsFrame (msg : DataMessage) : Prop :=
  ∃ body, body.length < 2 ^ 32 ∧ streamFrame msg = frame body ∧ RoundTrips 0 msg body ∧
    ∀ w t, msg.compHeader = none → decodeFrame w t body = some (.ok (.data { data := msg.data }))

/-- Whatever its length, the body is read back as the message, unless its compression header is of type `None`. -/
theorem streamBody_decodes {msg : DataMessage} (hcomp : msg.NamesAlgorithm) (hrel : msg.relHeader = none) :
    RoundTrips 0 msg (streamBody msg) ∧
      ∀ w t, msg.compHeader = none → decodeFrame w t (streamBody msg) = some (.ok (.data { data := msg.data })) := by
  obtain ⟨rel', offset, hsame, hdec⟩ := decodeMeta_unfragmented hcomp 0 (by simp [hrel])
  have hback : (decodedComp 0 msg.compHeader).map (·.toCompressionHeader) = msg.compHeader := by
    rw [decodedComp_eq_iff _ hcomp]
    exact fun _ _ hne => absurd rfl hne
  refine ⟨⟨_, ⟨_, _, rfl, hdec⟩, rfl, hback, hsame, rfl⟩, fun w t hnone => ?_⟩
  have hmeta : decodeStreamMeta (combinedSpans (streamBody msg, [])) = some (.ok _) := congrArg some hdec
  unfold decodeFrame decodeBody
  rw [hmeta]
  dsimp only
  rw [if_neg (by simp), hnone]
  rfl

theorem frame_inj {body body' : Bytes} (h : frame body = frame body') : body = body' := by
  have hlen : (Dbuf.u32.write (UInt32.ofNat body.length)).length =
      (Dbuf.u32.write (UInt32.ofNat body'.length)).length := by
    simp
  exact (List.append_inj h hlen).2

/-- A header byte that tells of the compression header, and a length that 32 bits hold, are what it takes. -/
theorem streamFrame_iff (msg : DataMessage) (hrel : msg.relHeader = none) :
    SentAsFrame msg ↔ msg.NamesAlgorithm ∧ (streamBody msg).length < 2 ^ 32 := by
  constructor
  · rintro ⟨body, hlt, hframe, htrips, -⟩
    have hbody : streamBody msg = body := frame_inj hframe
    rw [hbody]
    exact ⟨htrips.namesAlgorithm, hlt⟩
  · rintro ⟨hcomp, hlt⟩
    obtain ⟨htrips, hdec⟩ := streamBody_decodes hcomp hrel
    exact ⟨streamBody msg, hlt, rfl, htrips, hdec⟩

/-- **Framing.** The calls of `receiveMessage` return what the frames of a stream decode to, however it is split into
reads; and a data message is sent as such a frame exactly if its compression header, if it has one, is not of type
`None`, and the length of its body fits in 32 bits. -/
theorem streamFraming_iff :
    (∀ (ws : List World) (s : StreamTransport β) (bodies : List Bytes), Framed s bodies →
        (∀ r ∈ receiveCalls ws s,
          r ≠ .error (.custom .noBufferSpace) ∧ r ≠ .error (.custom .messageTooLong)) →
        (receiveCalls ws s).map some =
          List.zipWith (fun w body => decodeFrame w s.toBaseTransport body) ws (nonEmpty bodies)) ∧
      ∀ msg : DataMessage, msg.relHeader = none →
        (SentAsFrame msg ↔ msg.NamesAlgorithm ∧ (streamBody msg).length < 2 ^ 32) :=
  ⟨receiveCalls_frames, streamFrame_iff⟩

end

/-- Two data messages, an empty frame, a control message and a byte that starts no message. -/
def fiveBodies : List Bytes := [[0x80, 7], [], [14], [0x63], [0x80, 9]]

/-- Their first seven bytes are in the buffer and wrap around its end; two reads bring the rest. -/
def wrappedTransport : StreamTransport Ring where
  recvBuffer := ⟨4096, 4091, [2, 0, 0, 0, 0x80, 7, 0], by decide, by decide⟩
  stream := [.bytes [0, 0, 0, 1, 0, 0], .bytes [0, 14, 1, 0, 0, 0, 0x63, 2, 0, 0, 0, 0x80, 9]]

theorem wrappedTransport_framed : @Framed Dbuf.little Ring _ wrappedTransport fiveBodies := by
  refine @Framed.mk Dbuf.little Ring _ _ _ rfl (by decide) fun r hr => ?_
  simp only [wrappedTransport, List.mem_cons, List.not_mem_nil, or_false] at hr
  rcases hr with rfl | rfl
  · exact ⟨_, rfl, nofun⟩
  · exact ⟨_, rfl, nofun⟩

theorem wrappedTransport_received :
    (@receiveCalls Dbuf.little Ring _ (List.replicate 5 UdpTransport.idleWorld) wrappedTransport).map some =
      [some (.ok (.data { data := [7] })), some (.ok .reconnectSuccess), some (.error (.decode .invalidMessageType)),
        some (.ok (.data { data := [9] }))] := by
  have hcalls : @receiveCalls Dbuf.little Ring _ (List.replicate 5 UdpTransport.idleWorld) wrappedTransport =
      [.ok (.data { data := [7] }), .ok .reconnectSuccess, .error (.decode .invalidMessageType),
        .ok (.data { data := [9] })] := rfl
  refine ((@streamFraming_iff Dbuf.little Ring _).1 (List.replicate 5 UdpTransport.idleWorld) wrappedTransport fiveBodies
    wrappedTransport_framed ?_).trans rfl
  rw [hcalls]
  decide

/-- A message with `n` bytes. -/
def zerosMessage (n : Nat) : DataMessage where
  data := List.replicate n 0

theorem zerosMessage_body_length (n : Nat) : (@streamBody Dbuf.little (zerosMessage n)).length = n + 1 := by
  simp [streamBody, encodeDataHeader, dataHeaderFields, writeConnectionId, zerosMessage]

/-- The body of a message of 4 GiB has one byte more than 32 bits can count, so that the written length is 1. -/
theorem zerosMessage_misframed :
    (zerosMessage (2 ^ 32)).relHeader = none ∧
      @streamFrame Dbuf.little (zerosMessage (2 ^ 32)) =
        [1, 0, 0, 0] ++ @streamBody Dbuf.little (zerosMessage (2 ^ 32)) ∧
      ¬ @SentAsFrame Dbuf.little (zerosMessage (2 ^ 32)) := by
  have hcode : Dbuf.little.u32.write (UInt32.ofNat (2 ^ 32 + 1)) = [1, 0, 0, 0] := rfl
  refine ⟨rfl, ?_, ?_⟩
  · unfold streamFrame
    rw [zerosMessage_body_length, hcode]
  · rw [@streamFrame_iff Dbuf.little _ rfl, zerosMessage_body_length]
    rintro ⟨-, hlt⟩
    omega

/-- A size behind a header byte that does not announce it is taken for data. -/
example :
    @streamFrame Dbuf.little { data := [7], compHeader := some ⟨.none, 5⟩ } = [6, 0, 0, 0, 0x80, 5, 0, 0, 0, 7] ∧
      @decodeFrame Dbuf.little UdpTransport.idleWorld {} [0x80, 5, 0, 0, 0, 7] =
        some (.ok (.data { data := [5, 0, 0, 0, 7] })) := ⟨rfl, rfl⟩

end Qunet
