import Qunet.Lib.Channel
import Qunet.Stream.Progress
import Qunet.Connection.Compressing

/-!
# A stream in use

One end gives messages to `sendMessage`, whose `sendAll` writes them piece by piece. The bytes arrive at the other end
at any time, also between two reads of a call of `receiveMessage`.

* `Session` : a receiving transport, the bytes that are ready to be read, and what its calls have returned;
* `Session.round` : one round of the loop in `receiveMessage`;
* `Session.Follows` : the frames of some bodies were taken, and those of others are still to come;
* `StreamPipe`, `PipeStep` : both ends and the bytes between them;
* **`pipe_simulates_channel`** : the stream is a channel of bodies;
* **`stream_payloads_in_order`** : the payloads that were sent are returned, in order and once.
-/

namespace Qunet
open Lib

/-! ## The receiving end -/

/-- A frame that was taken out of the receive buffer, and what `receiveMessage` has returned for it. -/
structure TakenFrame where
  body : Bytes
  world : World
  result : Except TransportError QunetMessage

/-- A receiving transport in use. The lists are ghosts: the frames that were taken, and the results of the calls that
have returned without taking one. -/
structure Session (β : Type) extends BaseTransport where
  recvBuffer : β
  ready : Bytes := []
  taken : List TakenFrame := []
  failures : List (Except TransportError QunetMessage) := []

section
variable [Dbuf] {β : Type} [ByteQueue β]

namespace Session

/-- The transport, which the socket offers these reads. -/
def offer (s : Session β) (stream : StreamInput) : StreamTransport β :=
  { toBaseTransport := s.toBaseTransport, recvBuffer := s.recvBuffer, stream }

/-- The session after a round; the bytes `later` were not offered. -/
def after (s : Session β) (t : StreamTransport β) (later : Bytes) : Session β :=
  { s with toBaseTransport := t.toBaseTransport, recvBuffer := t.recvBuffer, ready := t.stream.bytes ++ later }

/-- The body at the front of the receive buffer. -/
def frontBody (s : Session β) : Bytes :=
  ByteQueue.front (announcedLength s.recvBuffer) (ByteQueue.skip 4 s.recvBuffer)

/-- A round of the loop, at a time when the socket offers some reads; nothing where an assertion fails. A call that was
waiting goes on like a new one. -/
def round (w : World) (offered : StreamInput) (later : Bytes) (s : Session β) : Option (Session β) :=
  match receiveRound w (s.offer offered) with
  | .continue t => some (s.after t later)
  | .waiting t => some (s.after t later)
  | .returned r t =>
    if ByteQueue.size t.recvBuffer < ByteQueue.size s.recvBuffer then
      some { s.after t later with taken := s.taken ++ [⟨s.frontBody, w, r⟩] }
    else some { s.after t later with failures := s.failures ++ [r] }
  | .aborted => none

/-- The frames of `done` were taken; what is in the buffer, ready or in the `future` are the frames of `rest`. -/
structure Follows (s : Session β) (future : Bytes) (done rest : List Bytes) : Prop where
  pending : ByteQueue.contents s.recvBuffer ++ s.ready ++ future = frames rest
  lengths : ∀ body ∈ rest, body.length < 2 ^ 32
  bodies : s.taken.map (·.body) = nonEmpty done
  results : ∀ f ∈ s.taken, decodeFrame f.world s.toBaseTransport f.body = some f.result

omit [Dbuf] [ByteQueue β] in
@[simp] theorem offer_recvBuffer (s : Session β) (stream : StreamInput) :
    (s.offer stream).recvBuffer = s.recvBuffer := rfl

omit [Dbuf] [ByteQueue β] in
@[simp] theorem offer_base (s : Session β) (stream : StreamInput) :
    (s.offer stream).toBaseTransport = s.toBaseTransport := rfl

end Session

/-- The bytes as one read, if there are any. -/
def readable (bytes : Bytes) : StreamInput := if bytes.isEmpty then [] else [.bytes bytes]

omit [Dbuf] in
@[simp] theorem readable_bytes (bytes : Bytes) : (readable bytes).bytes = bytes := by
  unfold readable
  cases bytes <;> simp [StreamInput.bytes]

omit [Dbuf] in
theorem readable_delivers (bytes : Bytes) : (readable bytes).Delivers := by
  intro r hr
  unfold readable at hr
  split at hr
  · cases hr
  · next hne =>
    refine ⟨bytes, List.mem_singleton.mp hr, ?_⟩
    rintro rfl
    exact hne rfl

namespace Session
variable {s s' : Session β} {future later : Bytes} {done rest : List Bytes} {offered : StreamInput} {w : World}

/-- If everything to come were offered, the frames of `rest` would be pending. -/
theorem Follows.framed (h : s.Follows future done rest) : Framed (s.offer (readable (s.ready ++ future))) rest := by
  refine ⟨?_, h.lengths, readable_delivers _⟩
  show ByteQueue.contents s.recvBuffer ++ (readable (s.ready ++ future)).bytes = _
  rw [readable_bytes, ← List.append_assoc, h.pending]

/-- Statistics apart, the results stay as they are. -/
theorem Follows.sameDecoder {t : BaseTransport} (h : s.Follows future done rest)
    (hsame : SameDecoder s.toBaseTransport t) : ∀ f ∈ s.taken, decodeFrame f.world t f.body = some f.result := by
  intro f hf
  rw [← h.results f hf]
  exact decodeBody_decoder hsame _ _

/-! ### The four kinds of rounds -/

/-- Waiting for data has left `t`: some bytes may have moved from the socket to the buffer. -/
structure Waits (s : Session β) (offered : StreamInput) (t : StreamTransport β) : Prop where
  bytes : ByteQueue.contents t.recvBuffer ++ t.stream.bytes = ByteQueue.contents s.recvBuffer ++ offered.bytes
  left : t.stream.bytes <:+ offered.bytes
  sameDecoder : SameDecoder s.toBaseTransport t.toBaseTransport

omit [Dbuf] in
/-- Nothing has moved when it returns. -/
theorem waitForData_waits (w : World) (s : Session β) (offered : StreamInput) (t : StreamTransport β)
    (h : waitForData w (s.offer offered) = .continue t ∨ waitForData w (s.offer offered) = .waiting t ∨
      ∃ r, waitForData w (s.offer offered) = .returned r t) :
    Waits s offered t ∧ ((∃ r, waitForData w (s.offer offered) = .returned r t) →
      ByteQueue.contents t.recvBuffer = ByteQueue.contents s.recvBuffer) := by
  have hpending : StreamTransport.pending (s.offer offered) = ByteQueue.contents s.recvBuffer ++ offered.bytes := rfl
  unfold waitForData at h ⊢
  split at h
  · obtain rfl : s.offer offered = t := by simpa using h
    exact ⟨⟨rfl, List.suffix_rfl, .refl _⟩, fun _ => rfl⟩
  · next hroom =>
    rw [if_neg hroom]
    dsimp only at h ⊢
    rcases hreceive : (s.offer offered).stream.receive (ByteQueue.writeWindow (makeRoom (s.offer offered).recvBuffer))
      with _ | ⟨e | _ | ⟨b, bs⟩, stream⟩
    · rw [hreceive] at h
      obtain rfl : { s.offer offered with recvBuffer := makeRoom s.recvBuffer } = t := by simpa using h
      exact ⟨⟨by simp [offer], List.suffix_rfl, .refl _⟩, fun _ => by simp⟩
    · have hstream : stream.bytes = offered.bytes := (StreamInput.receive_error hreceive).symm
      rw [hreceive] at h
      obtain rfl : { s.offer offered with recvBuffer := makeRoom s.recvBuffer, stream } = t := by simpa using h
      refine ⟨⟨?_, by rw [hstream], .refl _⟩, fun _ => by simp⟩
      rw [hstream, contents_makeRoom]
    · have hstream : stream.bytes = offered.bytes := (StreamInput.receive_ok hreceive).1.symm
      rw [hreceive] at h
      obtain rfl : { s.offer offered with recvBuffer := makeRoom s.recvBuffer, stream } = t := by simpa using h
      refine ⟨⟨?_, by rw [hstream], .refl _⟩, fun _ => by simp⟩
      rw [hstream, contents_makeRoom]
    · have hstream : offered.bytes = (b :: bs) ++ stream.bytes := (StreamInput.receive_ok hreceive).1
      rw [hreceive] at h
      obtain rfl : { s.offer offered with
          recvBuffer := ByteQueue.advanceWrite (b :: bs) (makeRoom s.recvBuffer), stream
          tracker := s.tracker.onDownPacket w.now (b :: bs).length } = t := by
        simpa using h
      refine ⟨⟨(pending_read hreceive _).trans hpending, ?_, ⟨rfl, rfl, rfl⟩⟩, by simp⟩
      rw [hstream]
      exact List.suffix_append _ _

/-- The frame at the front is empty. -/
theorem Follows.empty (h : s.Follows future done rest) (hannounces : Announces (s.offer offered) 0) :
    ∃ rest', rest = [] :: rest' ∧
      ByteQueue.contents (ByteQueue.skip 4 s.recvBuffer) ++ s.ready ++ future = frames rest' := by
  have hannounces' : Announces (s.offer (readable (s.ready ++ future))) 0 := hannounces
  obtain ⟨body, rest', rfl, hbody⟩ := h.framed.exists_announced hannounces'
  obtain rfl := List.length_eq_zero_iff.mp hbody
  have hfour : 4 ≤ ByteQueue.size s.recvBuffer := hannounces.1
  refine ⟨rest', rfl, ?_⟩
  have hpending := h.pending
  rw [frames_cons, List.nil_append] at hpending
  rw [ByteQueue.contents_skip _ _ hfour, List.append_assoc, ← List.drop_append_of_le_length hfour, ← List.append_assoc,
    hpending, List.drop_left' (Dbuf.u32.write_length _)]

omit [Dbuf] in
theorem size_offer (s : Session β) (offered : StreamInput) :
    ByteQueue.size (s.offer offered).recvBuffer = ByteQueue.size s.recvBuffer := rfl

/-- The frame at the front is taken. -/
theorem Follows.take (h : s.Follows future done rest) {length : Nat} (hannounces : Announces (s.offer offered) length)
    (hpos : length ≠ 0) (hsize : 4 + length ≤ ByteQueue.size s.recvBuffer) :
    ∃ body rest' r t, rest = body :: rest' ∧ body ≠ [] ∧ s.frontBody = body ∧
      takeFrame w (s.offer offered) length = .returned r t ∧
      decodeFrame w s.toBaseTransport body = some r ∧ t.stream = offered ∧
      ByteQueue.size t.recvBuffer < ByteQueue.size s.recvBuffer ∧
      ByteQueue.contents t.recvBuffer ++ s.ready ++ future = frames rest' ∧
      SameDecoder s.toBaseTransport t.toBaseTransport := by
  have hannounces' : Announces (s.offer (readable (s.ready ++ future))) length := hannounces
  obtain ⟨body, rest', rfl, rfl⟩ := h.framed.exists_announced hannounces'
  have hne : body ≠ [] := fun hnil => hpos (hnil ▸ rfl)
  have hfour : 4 ≤ ByteQueue.size s.recvBuffer := hannounces.1
  have hskip := ByteQueue.size_skip hfour
  obtain ⟨r, t, htake, hdec, hframed, hsame⟩ := takeFrame_framed w h.framed hne hsize
  have hbehind : ByteQueue.contents (ByteQueue.skip 4 s.recvBuffer) ++ (s.ready ++ future) = body ++ frames rest' := by
    have hpending := h.pending
    rw [frames_cons] at hpending
    rw [ByteQueue.contents_skip _ _ hfour, ← List.drop_append_of_le_length hfour, ← List.append_assoc, hpending,
      List.drop_left' (Dbuf.u32.write_length _)]
  have hlong : body.length ≤ ByteQueue.size (ByteQueue.skip 4 s.recvBuffer) := by omega
  have hfront : s.frontBody = body := by
    have hlength : announcedLength s.recvBuffer = body.length := hannounces.2
    rw [frontBody, hlength, ByteQueue.front_eq hlong, ← List.take_append_of_le_length hlong, hbehind, List.take_left]
  have htake' : takeFrame w (s.offer offered) body.length = .returned r { t with stream := offered } := by
    unfold takeFrame at htake ⊢
    dsimp only [offer] at htake ⊢
    split at htake
    · cases htake
    · cases htake
      rfl
  have ht : t.recvBuffer = ByteQueue.skip body.length (ByteQueue.skip 4 s.recvBuffer) ∧
      t.stream = readable (s.ready ++ future) := by
    unfold takeFrame at htake
    dsimp only [offer] at htake
    split at htake
    · cases htake
    · cases htake
      exact ⟨rfl, rfl⟩
  refine ⟨body, rest', r, _, rfl, hne, hfront, htake', hdec, rfl, ?_, ?_, hsame⟩
  · show ByteQueue.size t.recvBuffer < _
    rw [ht.1, ByteQueue.size_skip hlong]
    omega
  · have hpending := hframed.pending
    unfold StreamTransport.pending at hpending
    rwa [ht.2, readable_bytes, ← List.append_assoc] at hpending

/-- **Round.** Some frames may be taken, and nothing else is. -/
theorem Follows.round (h : s.Follows future done rest) (w : World) (hready : s.ready = offered.bytes ++ later) :
    ∃ s' done' rest', s.round w offered later = some s' ∧ done' ++ rest' = done ++ rest ∧ done <+: done' ∧
      s'.Follows future done' rest' := by
  have hkeep : ∀ {t : StreamTransport β}, Waits s offered t →
      ∀ failures, Follows { s.after t later with failures } future done rest := by
    intro t ht failures
    refine ⟨?_, h.lengths, h.bodies, h.sameDecoder ht.sameDecoder⟩
    show ByteQueue.contents t.recvBuffer ++ (t.stream.bytes ++ later) ++ future = _
    rw [← List.append_assoc, ht.bytes, List.append_assoc (ByteQueue.contents s.recvBuffer), ← hready, h.pending]
  unfold Session.round
  rcases receiveRound_kinds (s.offer offered) with hneeds | hzero | ⟨length, hannounces, hpos, hkind⟩
  · rw [receiveRound_needsData w hneeds]
    rcases hw : waitForData w (s.offer offered) with t | t | ⟨r, t⟩ | _
    · have hwaits := (waitForData_waits w s offered t (.inl hw)).1
      exact ⟨_, done, rest, rfl, rfl, List.prefix_rfl, hkeep hwaits _⟩
    · have hwaits := (waitForData_waits w s offered t (.inr (.inl hw))).1
      exact ⟨_, done, rest, rfl, rfl, List.prefix_rfl, hkeep hwaits _⟩
    · obtain ⟨hwaits, hcontents⟩ := waitForData_waits w s offered t (.inr (.inr ⟨r, hw⟩))
      have hsize : ¬ ByteQueue.size t.recvBuffer < ByteQueue.size s.recvBuffer := by
        unfold ByteQueue.size
        rw [hcontents ⟨r, hw⟩]
        omega
      dsimp only
      rw [if_neg hsize]
      exact ⟨_, done, rest, rfl, rfl, List.prefix_rfl, hkeep hwaits _⟩
    · rcases waitForData_cases w (s.offer offered) with
        ⟨-, hcase⟩ | ⟨-, ⟨_, hcase⟩ | ⟨_, _, _, _, hcase, -⟩ | ⟨_, hcase, -⟩ | ⟨_, _, _, _, hcase⟩⟩
      all_goals
        rw [hcase] at hw
        cases hw
  · obtain ⟨rest', rfl, hpending⟩ := h.empty hzero
    rw [receiveRound_empty w hzero]
    refine ⟨_, done ++ [[]], rest', rfl, by simp, List.prefix_append _ _, ?_, ?_, ?_, h.results⟩
    · show ByteQueue.contents (ByteQueue.skip 4 s.recvBuffer) ++ (offered.bytes ++ later) ++ future = _
      rw [← hready, hpending]
    · exact fun body hbody => h.lengths body (List.mem_cons_of_mem _ hbody)
    · show s.taken.map (·.body) = _
      rw [h.bodies, nonEmpty, nonEmpty, List.filter_append]
      simp
  · rcases hkind with hlimit | ⟨hlimit, hsize⟩
    · rw [receiveRound_tooLong w hannounces hpos hlimit]
      dsimp only
      rw [if_neg (by rw [size_offer]; omega)]
      exact ⟨_, done, rest, rfl, rfl, List.prefix_rfl, hkeep ⟨rfl, List.suffix_rfl, .refl _⟩ _⟩
    · obtain ⟨body, rest', r, t, rfl, hne, hfront, htake, hdec, hstream, hsmaller, hpending, hsame⟩ :=
        h.take (w := w) hannounces hpos hsize
      rw [receiveRound_complete w hannounces hpos hlimit hsize, htake]
      dsimp only
      rw [if_pos hsmaller]
      refine ⟨_, done ++ [body], rest', rfl, by simp, List.prefix_append _ _, ?_, ?_, ?_, ?_⟩
      · show ByteQueue.contents t.recvBuffer ++ (t.stream.bytes ++ later) ++ future = _
        rw [hstream, ← hready, hpending]
      · exact fun body hbody => h.lengths body (List.mem_cons_of_mem _ hbody)
      · show (s.taken ++ [TakenFrame.mk s.frontBody w r]).map TakenFrame.body = _
        rw [List.map_append, h.bodies, nonEmpty, nonEmpty, List.filter_append]
        simp [hfront, hne]
      · intro f hf
        rcases List.mem_append.mp hf with hf | hf
        · exact h.sameDecoder hsame f hf
        · obtain rfl := List.mem_singleton.mp hf
          show decodeFrame w t.toBaseTransport s.frontBody = some r
          rw [hfront, ← hdec]
          exact decodeBody_decoder hsame _ _

theorem receiveRound_left {t : StreamTransport β}
    (h : receiveRound w (s.offer offered) = .continue t ∨ receiveRound w (s.offer offered) = .waiting t ∨
      ∃ r, receiveRound w (s.offer offered) = .returned r t) : t.stream.bytes <:+ offered.bytes := by
  rcases receiveRound_kinds (s.offer offered) with hneeds | hzero | ⟨length, hannounces, hpos, hkind⟩
  · rw [receiveRound_needsData w hneeds] at h
    exact (waitForData_waits w s offered t h).1.left
  · rw [receiveRound_empty w hzero] at h
    obtain rfl : { s.offer offered with recvBuffer := ByteQueue.skip 4 s.recvBuffer } = t := by simpa using h
    exact List.suffix_rfl
  · rcases hkind with hlimit | ⟨hlimit, hsize⟩
    · rw [receiveRound_tooLong w hannounces hpos hlimit] at h
      obtain rfl : s.offer offered = t := by simpa using h
      exact List.suffix_rfl
    · rw [receiveRound_complete w hannounces hpos hlimit hsize] at h
      unfold takeFrame at h
      dsimp only at h
      split at h
      · simp at h
      · next base _ =>
        obtain rfl : { toBaseTransport := base, stream := offered
                       recvBuffer := ByteQueue.skip length (ByteQueue.skip 4 s.recvBuffer) } = t := by
          simpa [offer] using h
        exact List.suffix_rfl

/-- A round reads some of the bytes that it is offered, in order. -/
theorem round_left (h : s.round w offered later = some s') : s'.ready <:+ offered.bytes ++ later := by
  have hleft : ∀ {t : StreamTransport β}, t.stream.bytes <:+ offered.bytes →
      (s.after t later).ready <:+ offered.bytes ++ later := by
    rintro t ⟨read, hread⟩
    exact ⟨read, by rw [after, ← List.append_assoc, hread]⟩
  unfold Session.round at h
  rcases hround : receiveRound w (s.offer offered) with t | t | ⟨r, t⟩ | _
  · rw [hround] at h
    obtain rfl := Option.some.inj h
    exact hleft (receiveRound_left (.inl hround))
  · rw [hround] at h
    obtain rfl := Option.some.inj h
    exact hleft (receiveRound_left (.inr (.inl hround)))
  · have hsuffix := hleft (receiveRound_left (.inr (.inr ⟨r, hround⟩)))
    rw [hround] at h
    dsimp only at h
    split at h
    · obtain rfl := Option.some.inj h
      exact hsuffix
    · obtain rfl := Option.some.inj h
      exact hsuffix
  · rw [hround] at h
    cases h

/-- What is withheld plays no part in a round. -/
theorem round_later (s : Session β) (w : World) (offered : StreamInput) (later ready : Bytes) :
    Session.round w offered later { s with ready } =
      (s.round w offered []).map fun t => { t with ready := t.ready ++ later } := by
  have hoffer : Session.offer { s with ready } offered = s.offer offered := rfl
  unfold Session.round
  rw [hoffer]
  rcases receiveRound w (s.offer offered) with t | t | ⟨r, t⟩ | _
  · simp [after]
  · simp [after]
  · dsimp only
    split <;> simp [after, frontBody]
  · rfl

end Session

/-! ## Both ends -/

/-- A stream from one end to the other, after the handshake: the `bodies` of the messages that were given to
`sendMessage`, what its `sendAll` has not written yet, and the bytes that were written and have not arrived. -/
structure StreamPipe (β : Type) where
  bodies : List Bytes := []
  unsent : Bytes := []
  onWire : Bytes := []
  receiver : Session β

/-- Steps of the two ends, in any order. The last message has been written before the next one is sent. -/
inductive PipeStep (p : StreamPipe β) : StreamPipe β → Prop
  | sendMessage (body : Bytes) (hlength : body.length < 2 ^ 32) (hsent : p.unsent = []) :
    PipeStep p { p with bodies := p.bodies ++ [body], unsent := frame body }
  | write (n : Nat) : PipeStep p { p with unsent := p.unsent.drop n, onWire := p.onWire ++ p.unsent.take n }
  | arrive (n : Nat) :
    PipeStep p { p with onWire := p.onWire.drop n
                        receiver := { p.receiver with ready := p.receiver.ready ++ p.onWire.take n } }
  | round {w : World} {offered : StreamInput} {later : Bytes} {s : Session β}
      (hready : p.receiver.ready = offered.bytes ++ later) (hround : p.receiver.round w offered later = some s) :
    PipeStep p { p with receiver := s }

/-- Nothing was sent, and the receive buffer is empty. -/
def StreamPipe.Starts (p : StreamPipe β) : Prop :=
  ∃ (t : BaseTransport) (buffer : β), ByteQueue.contents buffer = [] ∧
    p = { receiver := { toBaseTransport := t, recvBuffer := buffer } }

/-- The frames of the first bodies were taken, and those of the others are on their way. -/
def StreamPipe.InOrder (p : StreamPipe β) : Prop :=
  ∃ done rest, p.bodies = done ++ rest ∧ p.receiver.Follows (p.onWire ++ p.unsent) done rest

/-- The channel of bodies; an empty body is passed over. -/
def StreamPipe.channel (p : StreamPipe β) : Fifo Bytes where
  sent := nonEmpty p.bodies
  delivered := p.receiver.taken.map (·.body)

namespace StreamPipe
variable {p q : StreamPipe β}

omit [Dbuf] in
theorem nonEmpty_append (bodies bodies' : List Bytes) :
    nonEmpty (bodies ++ bodies') = nonEmpty bodies ++ nonEmpty bodies' := List.filter_append ..

theorem Starts.inOrder (h : p.Starts) : p.InOrder := by
  obtain ⟨t, buffer, hempty, rfl⟩ := h
  refine ⟨[], [], rfl, ?_, nofun, rfl, nofun⟩
  simp [hempty, frames]

theorem InOrder.delivered (h : p.InOrder) : p.channel.delivered <+: p.channel.sent := by
  obtain ⟨done, rest, hbodies, hfollows⟩ := h
  rw [channel, hfollows.bodies, hbodies, nonEmpty_append]
  exact List.prefix_append _ _

/-- The frame of a new body comes behind all the others. -/
theorem InOrder.sendMessage (h : p.InOrder) {body : Bytes} (hlength : body.length < 2 ^ 32) (hsent : p.unsent = []) :
    InOrder { p with bodies := p.bodies ++ [body], unsent := frame body } := by
  obtain ⟨done, rest, hbodies, hpending, hlengths, hdone, hresults⟩ := h
  refine ⟨done, rest ++ [body], by rw [hbodies, List.append_assoc], ?_, ?_, hdone, hresults⟩
  · rw [hsent, List.append_nil] at hpending
    rw [← List.append_assoc, hpending, frames_concat]
  · intro b hb
    rcases List.mem_append.mp hb with hb | hb
    · exact hlengths b hb
    · rw [List.mem_singleton.mp hb]
      exact hlength

/-- **Step.** Every step keeps the order, and only adds to what was sent and what was delivered. -/
theorem InOrder.step (h : p.InOrder) (hst : PipeStep p q) :
    q.InOrder ∧ p.channel.sent <+: q.channel.sent ∧ p.channel.delivered <+: q.channel.delivered := by
  cases hst with
  | sendMessage body hlength hsent =>
    refine ⟨h.sendMessage hlength hsent, ?_, List.prefix_rfl⟩
    rw [channel, channel, nonEmpty_append]
    exact List.prefix_append _ _
  | write n =>
    obtain ⟨done, rest, hbodies, hpending, hlengths, hdone, hresults⟩ := h
    refine ⟨⟨done, rest, hbodies, ?_, hlengths, hdone, hresults⟩, List.prefix_rfl, List.prefix_rfl⟩
    rw [List.append_assoc p.onWire, List.take_append_drop, hpending]
  | arrive n =>
    obtain ⟨done, rest, hbodies, hpending, hlengths, hdone, hresults⟩ := h
    refine ⟨⟨done, rest, hbodies, ?_, hlengths, hdone, hresults⟩, List.prefix_rfl, List.prefix_rfl⟩
    show _ ++ (p.receiver.ready ++ p.onWire.take n) ++ (p.onWire.drop n ++ p.unsent) = _
    rw [← hpending]
    conv_rhs => rw [← List.take_append_drop n p.onWire]
    simp only [List.append_assoc]
  | @round w offered later s hready hround =>
    obtain ⟨done, rest, hbodies, hfollows⟩ := h
    obtain ⟨s', done', rest', hs', hsplit, hmore, hfollows'⟩ := hfollows.round w hready
    obtain rfl : s' = s := Option.some.inj (hs'.symm.trans hround)
    refine ⟨⟨done', rest', hbodies.trans hsplit.symm, hfollows'⟩, List.prefix_rfl, ?_⟩
    show p.receiver.taken.map _ <+: s'.taken.map _
    rw [hfollows.bodies, hfollows'.bodies]
    obtain ⟨more, rfl⟩ := hmore
    rw [nonEmpty_append]
    exact List.prefix_append _ _

theorem inOrder_of_reachable (h : Reachable Starts PipeStep p) : p.InOrder :=
  Reachable.invariant (fun _ hstart => hstart.inOrder) (fun _ _ hp hst => (hp.step hst).1) h

end StreamPipe

/-- **A stream is a channel.** However it is cut into writes, packets and reads, and whichever end takes the next step,
the bodies are taken in the order in which they were sent, and once. -/
theorem pipe_simulates_channel :
    Simulation (σ := StreamPipe β) StreamPipe.Starts PipeStep (· = {}) Fifo.Step
      fun p c => p.InOrder ∧ c = p.channel where
  start p h := by
    refine ⟨_, rfl, h.inOrder, ?_⟩
    obtain ⟨t, buffer, -, rfl⟩ := h
    rfl
  follow p c q := by
    rintro ⟨h, rfl⟩ hst
    obtain ⟨hq, hsent, hdelivered⟩ := h.step hst
    exact ⟨_, Fifo.extend hsent hdelivered hq.delivered, hq, rfl⟩

/-- A call of `receiveMessage` never comes to a failed assertion. -/
theorem Session.round_isSome {p : StreamPipe β} (h : Reachable StreamPipe.Starts PipeStep p) (w : World)
    {offered : StreamInput} {later : Bytes} (hready : p.receiver.ready = offered.bytes ++ later) :
    (p.receiver.round w offered later).isSome := by
  obtain ⟨done, rest, -, hfollows⟩ := StreamPipe.inOrder_of_reachable h
  obtain ⟨s', -, -, hs', -⟩ := hfollows.round w hready
  exact Option.isSome_of_eq_some hs'

/-! ## Payloads -/

/-- For a data message with this payload `sendMessage` has written the frame of `body`, compressed or not. -/
def SentAs (lib : CompressionLibraries) (dict : Option Bytes) (kind : StreamKind) (payload body : Bytes) : Prop :=
  ∃ (answer : Bytes → Option CompressionType) (timestamp : UInt64) (s : SocketTransport) (outgoing : OutgoingMessage),
    (∀ dict', s.zstdCompressor = .initialized dict' → dict' = dict) ∧ outgoing.message = .data { data := payload } ∧
      Socket.sendMessage lib answer kind timestamp (.ok ()) s outgoing = some (.ok (frame body))

/-- Such a body has a header byte, and decodes to the payload. -/
theorem SentAs.decodes {lib : CompressionLibraries} (hlib : lib.RoundTrips) {dict : Option Bytes} {kind : StreamKind}
    (hkind : kind ≠ .webSocket) {payload body : Bytes} (h : SentAs lib dict kind payload body)
    (hsize : payload.length < 2 ^ 31) :
    body ≠ [] ∧ ∀ (w : World) (t : BaseTransport), Receiver lib dict w t → payload.length ≤ t.messageSizeLimit →
      decodeFrame w t body = some (.ok (.data { data := payload })) := by
  obtain ⟨answer, timestamp, s, outgoing, hsame, hdata, hsend⟩ := h
  obtain ⟨ctype, msg, hmsg, hbody⟩ := Socket.sendMessage_data hdata hsend
  have hrel : msg.relHeader = none := compressAs_relHeader hsize hmsg
  obtain ⟨⟨m, ⟨msgType, rest, hbytes, hdec⟩, htype, hcomp, -, hmdata⟩, -⟩ :=
    streamBody_decodes (compressAs_namesAlgorithm rfl hsize hmsg) hrel
  have hstream : body = msgType :: rest := by
    rw [StreamKind.body, if_neg hkind, frame, List.drop_left' (Dbuf.u32.write_length _)] at hbody
    rw [hbody, hbytes]
  subst hstream
  refine ⟨List.cons_ne_nil _ _, fun w t hreceiver hlimit => ?_⟩
  have hrestores := compressAs_restores hlib hreceiver hsame rfl hsize hlimit hmsg
  have hmeta : decodeStreamMeta (combinedSpans (msgType :: rest, [])) = some (.ok m) := congrArg some hdec
  unfold decodeFrame decodeBody
  rw [hmeta]
  dsimp only
  rw [if_neg (by simp [htype])]
  exact congrArg some (decodePreFinalDataMessage_of_decompress (hrestores m hcomp hmdata))

/-- The bodies that were taken are the first ones that were sent, and decode to their payloads. -/
theorem StreamPipe.InOrder.payloads {lib : CompressionLibraries} (hlib : lib.RoundTrips) {dict : Option Bytes}
    {kind : StreamKind} (hkind : kind ≠ .webSocket) {p : StreamPipe β} (h : p.InOrder) {payloads : List Bytes}
    (hsent : List.Forall₂ (SentAs lib dict kind) payloads p.bodies)
    (hlimits : ∀ payload ∈ payloads, payload.length < 2 ^ 31 ∧ payload.length ≤ p.receiver.messageSizeLimit)
    (hreceivers : ∀ f ∈ p.receiver.taken, Receiver lib dict f.world p.receiver.toBaseTransport) :
    p.receiver.taken.map (·.result) =
        (payloads.take p.receiver.taken.length).map (fun payload => .ok (.data { data := payload })) ∧
      ByteQueue.contents p.receiver.recvBuffer ++ p.receiver.ready ++ (p.onWire ++ p.unsent) =
        frames (p.bodies.drop p.receiver.taken.length) := by
  obtain ⟨done, rest, hbodies, hfollows⟩ := h
  have hpairs := (List.forall₂_and_left _ _).mpr ⟨hlimits, hsent⟩
  have hdecodes : List.Forall₂ (fun body payload => body ≠ [] ∧ ∀ w, Receiver lib dict w p.receiver.toBaseTransport →
      decodeFrame w p.receiver.toBaseTransport body = some (.ok (.data { data := payload }))) p.bodies payloads := by
    refine (hpairs.imp fun payload body hpair => ?_).flip
    obtain ⟨⟨hsize, hlimit⟩, hsent⟩ := hpair
    obtain ⟨hne, hdec⟩ := hsent.decodes hlib hkind hsize
    exact ⟨hne, fun w hreceiver => hdec w _ hreceiver hlimit⟩
  obtain ⟨hne, hdecodes⟩ := (List.forall₂_and_left _ _).mp hdecodes
  have hkeep : nonEmpty done = done :=
    List.filter_eq_self.mpr fun body hbody => by simpa using hne body (hbodies ▸ List.mem_append_left _ hbody)
  have hdone := hfollows.bodies.trans hkeep
  have hlength : p.receiver.taken.length = done.length := by rw [← hdone, List.length_map]
  have hbodies' : p.receiver.taken.map (·.body) = p.bodies.take p.receiver.taken.length := by
    rw [hdone, hbodies, hlength, List.take_left]
  have htaken := List.forall₂_take p.receiver.taken.length hdecodes
  rw [← hbodies', List.forall₂_map_left_iff] at htaken
  have hfacts : ∀ f ∈ p.receiver.taken, Receiver lib dict f.world p.receiver.toBaseTransport ∧
      decodeFrame f.world p.receiver.toBaseTransport f.body = some f.result :=
    fun f hf => ⟨hreceivers f hf, hfollows.results f hf⟩
  have hresults := ((List.forall₂_and_left _ _).mpr ⟨hfacts, htaken⟩).imp fun f payload hpair =>
    show f.result = .ok (.data { data := payload }) from
      Option.some.inj (hpair.1.2.symm.trans (hpair.2 f.world hpair.1.1))
  constructor
  · rwa [← List.forall₂_eq_eq_eq, List.forall₂_map_left_iff, List.forall₂_map_right_iff]
  · rw [hbodies, hlength, List.drop_left]
    exact hfollows.pending

/-- **Payloads.** If both ends use the same libraries and dictionary, the calls of `receiveMessage` that take a frame
return the payloads that were sent, in order and once, and what they have not taken is on its way. -/
theorem stream_payloads_in_order {lib : CompressionLibraries} (hlib : lib.RoundTrips) {dict : Option Bytes}
    {kind : StreamKind} (hkind : kind ≠ .webSocket) {p : StreamPipe β} (h : Reachable StreamPipe.Starts PipeStep p)
    {payloads : List Bytes} (hsent : List.Forall₂ (SentAs lib dict kind) payloads p.bodies)
    (hlimits : ∀ payload ∈ payloads, payload.length < 2 ^ 31 ∧ payload.length ≤ p.receiver.messageSizeLimit)
    (hreceivers : ∀ f ∈ p.receiver.taken, Receiver lib dict f.world p.receiver.toBaseTransport) :
    p.receiver.taken.map (·.result) =
        (payloads.take p.receiver.taken.length).map (fun payload => .ok (.data { data := payload })) ∧
      ByteQueue.contents p.receiver.recvBuffer ++ p.receiver.ready ++ (p.onWire ++ p.unsent) =
        frames (p.bodies.drop p.receiver.taken.length) :=
  (StreamPipe.inOrder_of_reachable h).payloads hlib hkind hsent hlimits hreceivers

end

/-! ### A compressed payload, in pieces -/

/-- A receiver with the same LZ4. -/
def repeatedWorld : World :=
  { UdpTransport.idleWorld with zstd := fun _ _ _ => none, lz4 := repeatedLibraries.lz4Decompress }

def repeatedSession : Session Ring where
  zstdReady := true
  recvBuffer := .empty 16

/-- The session after these reads, each in a round of its own. -/
def repeatedRounds (reads : List Bytes) : Session Ring :=
  reads.foldl (fun s read =>
    (@Session.round Dbuf.little _ _ repeatedWorld (readable read) [] { s with ready := read }).getD s) repeatedSession

/-- The first bytes arrive in the middle of the length. -/
theorem stream_payloads_in_order_repeated :
    ∃ p, @Reachable _ StreamPipe.Starts (@PipeStep Dbuf.little Ring _) p ∧
      p.receiver.taken.map (·.result) = [.ok (.data { data := repeatedPayload })] := by
  let : Dbuf := .little
  have hframe : frame (repeatedFrame.drop 4) = repeatedFrame := by decide +kernel
  have hsent : SentAs repeatedLibraries none .tcp repeatedPayload (repeatedFrame.drop 4) := by
    refine ⟨fun _ => some .lz4, 0, {}, { message := .data { data := repeatedPayload } }, nofun, rfl, ?_⟩
    decide +kernel
  have hstart : Reachable StreamPipe.Starts PipeStep { receiver := repeatedSession } :=
    .start ⟨_, .empty 16, rfl, rfl⟩
  have hwritten := (hstart.next (.sendMessage (repeatedFrame.drop 4) (by decide) rfl)).next (.write 20)
  rw [hframe] at hwritten
  have hfirst := (hwritten.next (.arrive 3)).next
    (@PipeStep.round Dbuf.little Ring _ _ repeatedWorld (readable (repeatedFrame.take 3)) []
      (repeatedRounds [repeatedFrame.take 3]) rfl rfl)
  have hsecond := (hfirst.next (.arrive 17)).next
    (@PipeStep.round Dbuf.little Ring _ _ repeatedWorld (readable (repeatedFrame.drop 3)) []
      (repeatedRounds [repeatedFrame.take 3, repeatedFrame.drop 3]) rfl rfl)
  have hlast := hsecond.next
    (@PipeStep.round Dbuf.little Ring _ _ repeatedWorld (readable []) []
      (repeatedRounds [repeatedFrame.take 3, repeatedFrame.drop 3, []]) rfl rfl)
  have hlength := repeatedPayload_length
  have hresults := stream_payloads_in_order repeatedLibraries_roundTrips (by decide) hlast (.cons hsent .nil) ?_ ?_
  · exact ⟨_, hlast, hresults.1⟩
  · intro payload hpayload
    rw [List.mem_singleton.mp hpayload, hlength]
    decide
  · intro f hf
    obtain rfl := List.mem_singleton.mp hf
    exact ⟨rfl, rfl, fun _ _ _ => rfl, fun _ _ => rfl⟩

end Qunet
