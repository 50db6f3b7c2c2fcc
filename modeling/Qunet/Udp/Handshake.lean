import Qunet.Udp.Receiving
import Qunet.Udp.Sending

/-!
# The handshake (`UdpTransport::performHandshake`)

* `QdbChunks` : the chunks of the qunet database that have arrived, `addChunk` and `combineChunks`;
* `handshakeRound`, `handshakeLoop`, `performHandshake` : the polling loop with its queue of unexpected messages;
* `receiveMessage_flow` : a call of `receiveMessage` returns the first of what waits and what it decodes;
* `LoopFrame` : what was decoded in the loop is what it went through, and what still waits;
* **`performHandshake_keeps_iff`** : the unexpected messages are kept exactly if none waits behind the finishing chunk.
-/

namespace Qunet
open Lib

/-! ## The chunks of the database -/

/-- What the first chunk says, and the chunks so far. -/
structure QdbChunks where
  connectionId : UInt64
  uncompressedSize : UInt32
  compressedSize : UInt32
  chunks : List QdbData
  deriving DecidableEq

def handshakeError (reason : String) : TransportError := .handshakeFailure reason

/-- `std::memcpy(buf.data() + offset, data.data(), data.size())`. -/
def copyInto (buf : Bytes) (offset : Nat) (data : Bytes) : Bytes :=
  buf.take offset ++ data ++ buf.drop (offset + data.length)

/-- The loop that combines the chunks. A decoded chunk has `chunkSize` bytes. -/
def combineChunks (compressedSize : UInt32) : Bytes → List QdbData → Except TransportError Bytes
  | combinedData, [] => .ok combinedData
  | combinedData, c :: rest =>
    if c.chunkOffset > compressedSize ∨ c.chunkOffset + c.chunkSize > compressedSize then
      .error (handshakeError "Qdb chunk data out of bounds")
    else combineChunks compressedSize (copyInto combinedData c.chunkOffset.toNat c.chunkData) rest

inductive ChunkResult where
  | failed (e : TransportError)
  | incomplete (c : QdbChunks)
  | complete (m : HandshakeFinishMessage)
  deriving DecidableEq

/-- Check whether all chunks are there. -/
def finishChunks (c : QdbChunks) : ChunkResult :=
  let sizeSum := (c.chunks.map (·.chunkSize.toNat)).sum
  if sizeSum ≠ c.compressedSize.toNat then .incomplete c
  else match combineChunks c.compressedSize (List.replicate c.compressedSize.toNat 0) c.chunks with
    | .error e => .failed e
    | .ok combinedData => .complete
        { connectionId := c.connectionId
          qdbData := some
            { uncompressedSize := c.uncompressedSize, compressedSize := c.compressedSize, chunkOffset := 0,
              chunkSize := c.compressedSize, chunkData := combinedData } }

/-- One handshake finish message with a chunk. -/
def addChunk (c : Option QdbChunks) (connectionId : UInt64) (qdbData : QdbData) : ChunkResult :=
  match c with
  | none =>
    if qdbData.compressedSize.toNat > 1024 * 1024 then .failed (handshakeError "Qdb data is too large")
    else finishChunks ⟨connectionId, qdbData.uncompressedSize, qdbData.compressedSize, [qdbData]⟩
  | some c =>
    if connectionId ≠ c.connectionId then
      .failed (handshakeError "Mismatch between connection IDs in handshake chunks")
    else if ∃ c' ∈ c.chunks, c'.chunkOffset = qdbData.chunkOffset then .incomplete c
    else finishChunks { c with chunks := c.chunks ++ [qdbData] }

/-! ## The loop -/

/-- What a round of the loop finds: the timeout has expired, or the poll fails, times out or finds the socket readable. -/
inductive Poll where
  | resend (w : SendWorld)
  | failed (e : TransportError)
  | noData
  | ready (w : World)

/-- The local variables of the loop, apart from the clock. -/
structure HandshakeState where
  chunks : Option QdbChunks := none
  unexpectedMessages : List Received := []

/-- What a round of the loop does: it continues, leaves the function, finds the last chunk, or waits for input. -/
inductive RoundResult where
  | continue (t : UdpTransport) (sock : SocketInput) (st : HandshakeState)
  | returned (r : Except TransportError QunetMessage) (t : UdpTransport) (sock : SocketInput)
  | finished (outMessage : HandshakeFinishMessage) (t : UdpTransport) (sock : SocketInput)
      (unexpectedMessages : List Received)
  | waiting

namespace UdpTransport

section
variable [Dbuf]

def sendHandshakeStart (w : SendWorld) (t : UdpTransport) (handshakeStart : HandshakeStartMessage) :
    Except TransportError Unit × List Bytes × UdpTransport :=
  t.sendControl w (encodeControlHeader msgHandshakeStart t.connectionId ++ handshakeStart.encode)

omit [Dbuf] in
/-- One message that `receiveMessage` returned. -/
def handshakeMessage (t : UdpTransport) (sock : SocketInput) (st : HandshakeState) (r : Received) : RoundResult :=
  match r.message with
  | .handshakeFailure m => .returned (.ok (.handshakeFailure m)) t sock
  | .handshakeFinish msg =>
    match msg.qdbData with
    | none => .finished msg t sock st.unexpectedMessages
    | some qdbData =>
      match addChunk st.chunks msg.connectionId qdbData with
      | .failed e => .returned (.error e) t sock
      | .incomplete c => .continue t sock { st with chunks := some c }
      | .complete outMessage => .finished outMessage t sock st.unexpectedMessages
  | _ => .continue t sock { st with unexpectedMessages := st.unexpectedMessages ++ [r] }

def handshakeRound (handshakeStart : HandshakeStartMessage) (t : UdpTransport) (sock : SocketInput)
    (st : HandshakeState) : Poll → RoundResult
  | .resend w =>
    match t.sendHandshakeStart w handshakeStart with
    | (.error e, _, t) => .returned (.error e) t sock
    | (.ok (), _, t) => .continue t sock st
  | .failed e => .returned (.error e) t sock
  | .noData => .continue t sock st
  | .ready w =>
    match receiveMessage w t sock with
    | none => .waiting
    | some (.error e, t, sock) => .returned (.error e) t sock
    | some (.ok r, t, sock) => handshakeMessage t sock st r

/-- The rounds with the given polls; the loop continues when they are over. -/
def handshakeLoop (handshakeStart : HandshakeStartMessage) :
    List Poll → UdpTransport → SocketInput → HandshakeState → RoundResult
  | [], t, sock, st => .continue t sock st
  | poll :: polls, t, sock, st =>
    match handshakeRound handshakeStart t sock st poll with
    | .continue t sock st => handshakeLoop handshakeStart polls t sock st
    | result => result

omit [Dbuf] in
/-- `m_pendingMessages = std::move(unexpectedMessages)`. -/
def keepUnexpected (unexpectedMessages : List Received) (t : UdpTransport) : UdpTransport :=
  { t with pendingMessages := unexpectedMessages }

/-- Nothing is returned while the loop runs or waits. -/
def performHandshake (w : SendWorld) (handshakeStart : HandshakeStartMessage) (polls : List Poll) (t : UdpTransport)
    (sock : SocketInput) : Option (Except TransportError QunetMessage × UdpTransport × SocketInput) :=
  match t.sendHandshakeStart w handshakeStart with
  | (.error e, _, t) => some (.error e, t, sock)
  | (.ok (), _, t) =>
    match handshakeLoop handshakeStart polls t sock {} with
    | .returned r t sock => some (r, t, sock)
    | .finished outMessage t sock unexpectedMessages =>
      some (.ok (.handshakeFinish outMessage), t.keepUnexpected unexpectedMessages, sock)
    | _ => none

/-! ## What a call of `receiveMessage` returns -/

/-- The messages `rs` were decoded, and `o` was taken from the front of what waits. -/
structure Flow (t t' : UdpTransport) (o : Option Received) (rs : List Received) : Prop where
  queue : queue o t' = t.pendingMessages ++ rs
  decoded : t'.trace.decoded = t.trace.decoded ++ rs

omit [Dbuf] in
theorem receiveQueued_flow {w : World} {t t' : UdpTransport} {o : Option Received}
    (h : receiveQueued w t = some (.ok o, t')) : ∃ rs, Flow t t' o rs := by
  rcases receiveQueued_some h with ⟨first, rest, hp, ho, rfl⟩ | ⟨m, rest, hp, hd, hf⟩
  · cases ho
    refine ⟨[], ?_, (List.append_nil _).symm⟩
    rw [hp, List.append_nil]
    rfl
  · cases hdec : decompress w (t.withDelayed rest) m.toQunetMessageMeta with
    | error e =>
      rw [finishData_error hdec] at hf
      cases hf
    | ok data =>
      rw [finishData_ok hdec] at hf
      cases hf
      refine ⟨[_], ?_, rfl⟩
      show _ :: t.pendingMessages = _
      rw [hp]
      rfl

theorem receiveMessageInner_flow {w : World} {t t' : UdpTransport} {sock sock' : SocketInput} {o : Option Received}
    (h : receiveMessageInner w t sock = some (.ok o, t', sock')) : ∃ rs, Flow t t' o rs := by
  rcases receiveMessageInner_ok h with hq | ⟨w', bytes, hq, rfl, hbatch⟩
  · exact receiveQueued_flow hq
  · obtain ⟨hp, -⟩ := receiveQueued_none hq
    obtain ⟨rs, -, hqueue, hdecoded, -⟩ := receiveBatch_start hp hbatch
    refine ⟨rs, ?_, hdecoded⟩
    rw [hp]
    exact hqueue

omit [Dbuf] in
theorem Flow.trans {t t' t'' : UdpTransport} {o : Option Received} {rs rs' : List Received}
    (h : Flow t t' none rs) (h' : Flow t' t'' o rs') : Flow t t'' o (rs ++ rs') := by
  have hq : t'.pendingMessages = t.pendingMessages ++ rs := h.queue
  refine ⟨?_, ?_⟩
  · rw [h'.queue, hq, List.append_assoc]
  · rw [h'.decoded, h.decoded, List.append_assoc]

theorem receiveMessageLoop_flow {w : World} {rounds : Nat} {t t' : UdpTransport} {sock sock' : SocketInput}
    {r : Received} (h : receiveMessageLoop w rounds t sock = some (.ok r, t', sock')) :
    ∃ rs, Flow t t' (some r) rs := by
  induction rounds generalizing t sock with
  | zero => cases h
  | succ rounds ih =>
    unfold receiveMessageLoop at h
    rcases hm : receiveMessageInner w t sock with _ | ⟨(e | (_ | r₁)), t₁, sock₁⟩
    · rw [hm] at h
      cases h
    · rw [hm] at h
      cases h
    · rw [hm] at h
      obtain ⟨rs, hflow⟩ := receiveMessageInner_flow hm
      obtain ⟨rs', hflow'⟩ := ih h
      exact ⟨rs ++ rs', hflow.trans hflow'⟩
    · rw [hm] at h
      cases h
      exact receiveMessageInner_flow hm

theorem receiveMessage_flow {w : World} {t t' : UdpTransport} {sock sock' : SocketInput} {r : Received}
    (h : receiveMessage w t sock = some (.ok r, t', sock')) : ∃ rs, Flow t t' (some r) rs := receiveMessageLoop_flow h

/-- The next calls of `receiveMessage` return `rs`, whatever arrives on the socket, and do not touch it. -/
def NextReturned : UdpTransport → List Received → Prop
  | _, [] => True
  | t, r :: rs => ∀ w sock, ∃ t', receiveMessage w t sock = some (.ok r, t', sock) ∧ NextReturned t' rs

theorem nextReturned_pending {t : UdpTransport} {rs : List Received} (h : t.pendingMessages = rs) :
    NextReturned t rs := by
  induction rs generalizing t with
  | nil => exact trivial
  | cons r rs ih =>
    intro w sock
    exact ⟨_, receiveMessage_pending w t sock h, ih rfl⟩

/-! ## The loop of the handshake -/

omit [Dbuf] in
/-- A chunk of the handshake, or all of it. -/
def isHandshakeFinish (r : Received) : Bool :=
  match r.message with
  | .handshakeFinish _ => true
  | _ => false

omit [Dbuf] in
/-- The messages that are not chunks. -/
def unexpectedOf (rs : List Received) : List Received := rs.filter fun r => !isHandshakeFinish r

omit [Dbuf] in
/-- The loop went through `through`, of which it kept the unexpected messages, and the rest of what was decoded waits. -/
def LoopFrame (t₀ t : UdpTransport) (unexpectedMessages : List Received) : Prop :=
  ∃ rs through, t.trace.decoded = t₀.trace.decoded ++ rs ∧
    t₀.pendingMessages ++ rs = through ++ t.pendingMessages ∧ unexpectedMessages = unexpectedOf through

omit [Dbuf] in
theorem LoopFrame.congr {t₀ t t' : UdpTransport} {u : List Received} (h : LoopFrame t₀ t u)
    (htr : t'.trace.decoded = t.trace.decoded) (hp : t'.pendingMessages = t.pendingMessages) : LoopFrame t₀ t' u := by
  unfold LoopFrame
  rw [htr, hp]
  exact h

omit [Dbuf] in
/-- The loop goes through one more message. -/
theorem LoopFrame.receive {t₀ t t' : UdpTransport} {u rs : List Received} {r : Received} (h : LoopFrame t₀ t u)
    (hflow : Flow t t' (some r) rs) : LoopFrame t₀ t' (u ++ unexpectedOf [r]) := by
  obtain ⟨rs₀, through, hdec, hsplit, rfl⟩ := h
  have hqueue : r :: t'.pendingMessages = t.pendingMessages ++ rs := hflow.queue
  refine ⟨rs₀ ++ rs, through ++ [r], ?_, ?_, ?_⟩
  · rw [hflow.decoded, hdec, List.append_assoc]
  · rw [← List.append_assoc, hsplit, List.append_assoc, ← hqueue, List.append_assoc, List.singleton_append]
  · rw [unexpectedOf, unexpectedOf, unexpectedOf, List.filter_append]

theorem sendHandshakeStart_frame (w : SendWorld) (t : UdpTransport) (handshakeStart : HandshakeStartMessage) :
    (t.sendHandshakeStart w handshakeStart).2.2.trace.decoded = t.trace.decoded ∧
      (t.sendHandshakeStart w handshakeStart).2.2.pendingMessages = t.pendingMessages := by
  unfold sendHandshakeStart sendControl
  dsimp only
  cases w.link 0 <;> exact ⟨rfl, rfl⟩

/-- The frame of a round that continues or finds the last chunk. A round that leaves the function returns no chunk. -/
def RoundResult.Framed (t₀ : UdpTransport) : RoundResult → Prop
  | .continue t _ st => LoopFrame t₀ t st.unexpectedMessages
  | .finished _ t _ unexpectedMessages => LoopFrame t₀ t unexpectedMessages
  | .returned r _ _ => ∀ outMessage, r ≠ .ok (.handshakeFinish outMessage)
  | .waiting => True

omit [Dbuf] in
theorem handshakeMessage_framed {t₀ t : UdpTransport} {sock : SocketInput} {st : HandshakeState} {r : Received}
    (h : LoopFrame t₀ t (st.unexpectedMessages ++ unexpectedOf [r])) :
    RoundResult.Framed t₀ (handshakeMessage t sock st r) := by
  obtain ⟨message, origin⟩ := r
  unfold handshakeMessage
  cases message with
  | handshakeFailure m =>
    intro outMessage heq
    cases heq
  | handshakeFinish msg =>
    have hsame : st.unexpectedMessages ++ unexpectedOf [⟨.handshakeFinish msg, origin⟩] = st.unexpectedMessages :=
      List.append_nil _
    rw [hsame] at h
    dsimp only
    cases msg.qdbData with
    | none => exact h
    | some qdbData =>
      dsimp only
      cases addChunk st.chunks msg.connectionId qdbData with
      | failed e =>
        intro outMessage heq
        cases heq
      | incomplete c => exact h
      | complete outMessage => exact h
  | _ => exact h

/-- One round of the loop. -/
theorem handshakeRound_framed {t₀ t : UdpTransport} {st : HandshakeState} (handshakeStart : HandshakeStartMessage)
    (sock : SocketInput) (h : LoopFrame t₀ t st.unexpectedMessages) (poll : Poll) :
    RoundResult.Framed t₀ (handshakeRound handshakeStart t sock st poll) := by
  have herror : ∀ (e : TransportError) t' sock', RoundResult.Framed t₀ (.returned (.error e) t' sock') := by
    intro e t' sock' outMessage heq
    cases heq
  unfold handshakeRound
  cases poll with
  | resend w =>
    obtain ⟨htr, hp⟩ := sendHandshakeStart_frame w t handshakeStart
    dsimp only
    rcases hs : t.sendHandshakeStart w handshakeStart with ⟨e | ⟨⟩, out, t'⟩
    · exact herror e t' sock
    · rw [hs] at htr hp
      exact h.congr htr hp
  | failed e => exact herror e t sock
  | noData => exact h
  | ready w =>
    dsimp only
    rcases hr : receiveMessage w t sock with _ | ⟨e | r, t', sock'⟩
    · exact trivial
    · exact herror e t' sock'
    · obtain ⟨rs, hflow⟩ := receiveMessage_flow hr
      exact handshakeMessage_framed (h.receive hflow)

/-- **The loop.** -/
theorem handshakeLoop_framed {t₀ t : UdpTransport} {st : HandshakeState} (handshakeStart : HandshakeStartMessage)
    (sock : SocketInput) (h : LoopFrame t₀ t st.unexpectedMessages) (polls : List Poll) :
    RoundResult.Framed t₀ (handshakeLoop handshakeStart polls t sock st) := by
  induction polls generalizing t sock st with
  | nil => exact h
  | cons poll polls ih =>
    have hround := handshakeRound_framed handshakeStart sock h poll
    unfold handshakeLoop
    cases hr : handshakeRound handshakeStart t sock st poll with
    | «continue» t' sock' st' =>
      rw [hr] at hround
      exact ih sock' hround
    | returned r t' sock' =>
      rw [hr] at hround
      exact hround
    | finished out t' sock' u =>
      rw [hr] at hround
      exact hround
    | waiting => exact trivial

/-! ## The whole handshake -/

omit [Dbuf] in
/-- Every message that waited before or was decoded since, and is not a chunk, waits. -/
def UnexpectedKept (t t' : UdpTransport) : Prop :=
  ∃ rs, t'.trace.decoded = t.trace.decoded ++ rs ∧ t'.pendingMessages = unexpectedOf (t.pendingMessages ++ rs)

/-- When the last chunk is found, only chunks wait behind it. -/
def OnlyChunksWait (w : SendWorld) (handshakeStart : HandshakeStartMessage) (polls : List Poll) (t : UdpTransport)
    (sock : SocketInput) : Prop :=
  match handshakeLoop handshakeStart polls (t.sendHandshakeStart w handshakeStart).2.2 sock {} with
  | .finished _ t _ _ => ∀ r ∈ t.pendingMessages, isHandshakeFinish r
  | _ => True

theorem handshakeStart_framed (w : SendWorld) (t : UdpTransport) (handshakeStart : HandshakeStartMessage)
    (polls : List Poll) (sock : SocketInput) :
    RoundResult.Framed t (handshakeLoop handshakeStart polls (t.sendHandshakeStart w handshakeStart).2.2 sock {}) := by
  obtain ⟨htr, hp⟩ := sendHandshakeStart_frame w t handshakeStart
  have hself : LoopFrame t t [] := ⟨[], [], (List.append_nil _).symm, List.append_nil _, rfl⟩
  exact handshakeLoop_framed handshakeStart sock (hself.congr htr hp) polls

/-- A finished handshake found the last chunk in its loop. -/
theorem performHandshake_finished {w : SendWorld} {handshakeStart : HandshakeStartMessage} {polls : List Poll}
    {t t' : UdpTransport} {sock sock' : SocketInput} {outMessage : HandshakeFinishMessage}
    (h : performHandshake w handshakeStart polls t sock = some (.ok (.handshakeFinish outMessage), t', sock')) :
    ∃ t₁ u, handshakeLoop handshakeStart polls (t.sendHandshakeStart w handshakeStart).2.2 sock {} =
        .finished outMessage t₁ sock' u ∧ t' = t₁.keepUnexpected u := by
  have hframed := handshakeStart_framed w t handshakeStart polls sock
  unfold performHandshake at h
  rcases hs : t.sendHandshakeStart w handshakeStart with ⟨e | ⟨⟩, out, t₀⟩
  · rw [hs] at h
    cases h
  · rw [hs] at h hframed
    dsimp only at h hframed ⊢
    cases hl : handshakeLoop handshakeStart polls t₀ sock {} with
    | «continue» t₁ sock₁ st =>
      rw [hl] at h
      cases h
    | returned r t₁ sock₁ =>
      rw [hl] at h hframed
      simp only [Option.some.injEq, Prod.mk.injEq] at h
      exact absurd h.1 (hframed outMessage)
    | finished m t₁ sock₁ u =>
      rw [hl] at h
      cases h
      exact ⟨t₁, u, rfl, rfl⟩
    | waiting =>
      rw [hl] at h
      cases h

/-- **The handshake.** When it finishes, what the next calls of `receiveMessage` return are the messages that were
decoded meanwhile, chunks apart, exactly if only chunks wait behind the last one in `m_pendingMessages`. -/
theorem performHandshake_keeps_iff (w : SendWorld) (handshakeStart : HandshakeStartMessage) (polls : List Poll)
    (t t' : UdpTransport) (sock sock' : SocketInput) (outMessage : HandshakeFinishMessage)
    (h : performHandshake w handshakeStart polls t sock = some (.ok (.handshakeFinish outMessage), t', sock')) :
    (UnexpectedKept t t' ↔ OnlyChunksWait w handshakeStart polls t sock) ∧ NextReturned t' t'.pendingMessages := by
  obtain ⟨t₁, u, hloop, rfl⟩ := performHandshake_finished h
  refine ⟨?_, nextReturned_pending rfl⟩
  have hframe := handshakeStart_framed w t handshakeStart polls sock
  rw [hloop] at hframe
  obtain ⟨rs, through, hdec, hsplit, rfl⟩ := hframe
  have hwait : unexpectedOf (t.pendingMessages ++ rs) = unexpectedOf through ++ unexpectedOf t₁.pendingMessages := by
    rw [hsplit, unexpectedOf, List.filter_append]
    rfl
  have hnone : unexpectedOf t₁.pendingMessages = [] ↔ ∀ r ∈ t₁.pendingMessages, isHandshakeFinish r := by
    rw [unexpectedOf, List.filter_eq_nil_iff]
    simp
  unfold OnlyChunksWait
  rw [hloop]
  dsimp only
  rw [← hnone]
  constructor
  · rintro ⟨rs', hdec', hkept⟩
    have hrs : rs' = rs := by
      have heq : t.trace.decoded ++ rs' = t.trace.decoded ++ rs := by rw [← hdec', ← hdec]; rfl
      exact List.append_cancel_left heq
    subst hrs
    have hpend : unexpectedOf through = unexpectedOf (t.pendingMessages ++ rs') := hkept
    rw [hwait] at hpend
    exact List.append_cancel_left (hpend.symm.trans (List.append_nil _).symm)
  · intro hempty
    refine ⟨rs, hdec, ?_⟩
    rw [hwait, hempty, List.append_nil]
    rfl

end

def plainStart : HandshakeStartMessage := ⟨⟨1, 0⟩, 1200, .replicate 16 0⟩

/-- The finish message for the connection 5, without a database. -/
def finishFive : Bytes := [6, 5, 0, 0, 0, 0, 0, 0, 0, 0]

/-- A message in front of the finish message is kept. -/
theorem performHandshake_keeps_front :
    ∃ t', @performHandshake Dbuf.little openLink plainStart [.ready idleWorld, .ready idleWorld] {}
        [(idleWorld, .datagram (msgReconnectSuccess :: finishFive))] =
          some (.ok (.handshakeFinish ⟨5, none⟩), t', []) ∧
      t'.pendingMessages.map (·.message) = [.reconnectSuccess] ∧ UnexpectedKept {} t' := by
  have hkeeps := @performHandshake_keeps_iff Dbuf.little openLink plainStart [.ready idleWorld, .ready idleWorld] {} _
    [(idleWorld, .datagram (msgReconnectSuccess :: finishFive))] [] ⟨5, none⟩ rfl
  refine ⟨_, rfl, rfl, hkeeps.1.mpr fun r hr => ?_⟩
  cases hr

/-- A message behind the finish message is lost. -/
theorem performHandshake_loses_back :
    ∃ t', @performHandshake Dbuf.little openLink plainStart [.ready idleWorld] {}
        [(idleWorld, .datagram (finishFive ++ [msgReconnectSuccess]))] =
          some (.ok (.handshakeFinish ⟨5, none⟩), t', []) ∧
      t'.trace.decoded.map (·.message) = [.handshakeFinish ⟨5, none⟩, .reconnectSuccess] ∧
      t'.pendingMessages = [] ∧ ¬ UnexpectedKept {} t' := by
  refine ⟨_, rfl, rfl, rfl, ?_⟩
  rintro ⟨rs, hdec, hpend⟩
  rw [show (({} : UdpTransport).trace.decoded ++ rs) = rs from rfl] at hdec
  rw [← hdec] at hpend
  revert hpend
  decide

end UdpTransport

end Qunet
