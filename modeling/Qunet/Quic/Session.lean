import Qunet.Quic.SendAll
import Qunet.Stream.Session

/-!
# Messages on a QUIC stream (`quic/QuicStream.cpp`, `quic/QuicConnection.cpp`, `transport/QuicTransport.cpp`)

* `CircularByteBuffer.onReceivedData`, `QuicReceiver`, `QuicReceiver.round` : the receive buffer of the main stream, and
  the rounds of `receiveMessage` that read from it;
* `QuicPipe`, `QuicStep` : the steps of the sending end, the arrival of what was handed to ngtcp2 at the other end, and
  the receiving task, in any order;
* `QuicPipe.StandsFor.onReceivedData` : the flow-control window is smaller than the buffer, so that nothing is dropped;
* `quic_simulates_stream` : as long as every `write` is safe, every step is finitely many steps of a `StreamPipe`;
* **`quic_payloads_in_order`** : then the payloads that were sent are returned, in order and once.
-/

namespace Qunet
open Lib Relation

/-! ## The receiving end -/

namespace CircularByteBuffer

/-- What does not fit is dropped. The difference is one of 64-bit numbers. -/
def onReceivedData [BufferGrowth] (data : Bytes) (recvbuf : CircularByteBuffer) : CircularByteBuffer :=
  let spaceUntilMax := (((maxBufferSize : Int) - recvbuf.size) % 2 ^ 64).toNat
  if data.length < spaceUntilMax then recvbuf.write data else recvbuf

theorem onReceivedData_contents [BufferGrowth] (data : Bytes) (b : CircularByteBuffer)
    (h : b.size + data.length < maxBufferSize) : (b.onReceivedData data).contents = b.contents ++ data := by
  have hspace : (((maxBufferSize : Int) - b.size) % 2 ^ 64).toNat = maxBufferSize - b.size := by
    have hmax : maxBufferSize < 2 ^ 64 := by decide
    omega
  unfold onReceivedData
  dsimp only
  rw [hspace, if_pos (by omega)]
  rfl

end CircularByteBuffer

/-- The receiving end: the calls of `close` with the flags of the connection, the receive buffer of the transport, and
that of the main stream as long as `m_streams` contains it. -/
structure QuicReceiver (β : Type) extends BaseTransport where
  closing : CloseRun := {}
  recvBuffer : β
  stream : Option CircularByteBuffer := some (.empty initialBufferSize)
  taken : List TakenFrame := []
  failures : List (Except TransportError QunetMessage) := []

namespace QuicReceiver
variable {β : Type}

/-- The bytes of the stream that were not read. -/
def unread (r : QuicReceiver β) : Bytes := (r.stream.map (·.contents)).getD []

/-- What `QuicConnection::receive` answers at this time, and the bytes that it withholds. -/
def offers (r : QuicReceiver β) : StreamInput × Bytes :=
  if r.closing.conn.closed || r.closing.conn.cancelled then ([.error (.custom .closed)], r.unread)
  else match r.stream with
    | none => ([.error (.custom .invalidArgument)], r.unread)
    | some recvbuf => (readable recvbuf.contents, [])

def session (r : QuicReceiver β) : Session β where
  toBaseTransport := r.toBaseTransport
  recvBuffer := r.recvBuffer
  ready := r.unread
  taken := r.taken
  failures := r.failures

/-- A round of the loop in `receiveMessage`; the bytes that it has read leave the stream's buffer. -/
def round [Dbuf] [ByteQueue β] (w : World) (r : QuicReceiver β) : Option (QuicReceiver β) :=
  (r.session.round w r.offers.1 r.offers.2).map fun s =>
    { r with
      toBaseTransport := s.toBaseTransport
      recvBuffer := s.recvBuffer
      stream := r.stream.map fun recvbuf => recvbuf.skip (recvbuf.size - s.ready.length)
      taken := s.taken
      failures := s.failures }

theorem unread_some {r : QuicReceiver β} {b : CircularByteBuffer} (h : r.stream = some b) : r.unread = b.contents := by
  rw [unread, h]
  rfl

theorem offers_split (r : QuicReceiver β) : r.unread = r.offers.1.bytes ++ r.offers.2 := by
  unfold offers
  split
  · rfl
  · split
    · rfl
    · next b h => rw [unread_some h, readable_bytes, List.append_nil]

/-- `offers` is what `receive` returns, for any room. -/
theorem offers_receive (r : QuicReceiver β) {room : Nat} (hroom : room ≠ 0) :
    (r.offers.1.receive room).map (·.1) = r.closing.conn.receive (r.stream.map (·.contents)) room := by
  unfold offers QuicConnection.receive QuicConnection.receiveRound
  cases hclosed : r.closing.conn.closed
  · cases hcancelled : r.closing.conn.cancelled
    · rcases r.stream with _ | ⟨_ | ⟨b, bs⟩, capacity, hfits⟩
      · simp [hroom, StreamInput.receive]
      · simp [hroom, StreamInput.receive, readable]
      · simp only [hroom, readable, StreamInput.receive, Option.map_some]
        simp
        split <;> simp_all
    · simp [hroom, StreamInput.receive]
  · simp [StreamInput.receive]

end QuicReceiver

/-! ## Both ends -/

/-- A QUIC connection with its main stream in one direction, after the handshake; both ends run this code. -/
structure QuicPipe (β : Type) where
  sender : QuicSender := {}
  /-- So many of the bytes that ngtcp2 was handed have arrived. -/
  arrived : Nat := 0
  receiver : QuicReceiver β

section
variable [BufferGrowth] {β : Type}

/-- `recv_stream_data`. -/
def QuicPipe.arrive (data : Bytes) (p : QuicPipe β) : QuicPipe β :=
  { p with
    arrived := p.arrived + data.length
    receiver := { p.receiver with stream := p.receiver.stream.map (·.onReceivedData data) } }

variable [Dbuf] [ByteQueue β]

/-- Steps of the tasks at both ends, in any order. ngtcp2 delivers what it was handed, in order; once a `write` was not
safe, the buffer may have been moved under it, and any bytes arrive. -/
inductive QuicStep (p : QuicPipe β) : QuicPipe β → Prop
  | send {s : QuicSender} (hstep : SendStep p.arrived p.sender s) : QuicStep p { p with sender := s }
  | arrive (data : Bytes) (hhanded : p.arrived + data.length ≤ p.sender.run.handed.length)
      (hdata : p.sender.safe = true → data = (p.sender.run.handed.drop p.arrived).take data.length) :
    QuicStep p (p.arrive data)
  | round {w : World} {r : QuicReceiver β} (hround : p.receiver.round w = some r) : QuicStep p { p with receiver := r }
  /-- The receiving end is being closed. -/
  | close (e : CloseEvent) {closing : CloseRun} (hstep : closeStep p.receiver.closing e = some closing) :
    QuicStep p { p with receiver := { p.receiver with closing } }
  /-- `stream_close` erases the stream at the receiving end. -/
  | streamClose : QuicStep p { p with receiver := { p.receiver with stream := none } }

def QuicPipe.Starts (p : QuicPipe β) : Prop :=
  ∃ (t : BaseTransport) (buffer : β), ByteQueue.contents buffer = [] ∧
    p = { receiver := { toBaseTransport := t, recvBuffer := buffer } }

/-! ## The refinement -/

/-- The stream `q` stands for the connection. The bytes behind an erased stream are lost, and so is what a call of
`sendAll` that has failed, or comes behind one, does not write. -/
structure QuicPipe.StandsFor (p : QuicPipe β) (q : StreamPipe β) : Prop where
  arrived : p.arrived ≤ p.sender.run.handed.length
  window : p.sender.run.handed.length ≤ streamWindow
  unread : p.receiver.unread.length ≤ p.arrived
  bodies : q.bodies <+: p.sender.bodies
  sending : p.sender.failed = false → q.bodies = p.sender.bodies ∧ q.unsent = p.sender.unsent
  session : p.receiver.session = { q.receiver with ready := p.receiver.unread }
  ready : p.receiver.stream.isSome →
    q.receiver.ready = p.receiver.unread ∧ q.onWire = p.sender.run.accepted.drop p.arrived

omit [ByteQueue β] in
theorem SendStep.safe {arrived : Nat} {s t : QuicSender} (hst : SendStep arrived s t) (h : t.safe = true) :
    s.safe = true := by
  cases hst with
  | resume hresume =>
    cases QuicSender.resume_resumed hresume with
    | written phase next =>
      subst next
      exact (Bool.and_eq_true_iff.mp h).1
    | closed phase closed next | opened phase opened next | found phase found next | erased phase erased next
    | writable phase room next =>
      subst next
      exact h
  | sendMessage | worker | close | streamClose => exact h

namespace QuicPipe.StandsFor
variable {p p' : QuicPipe β} {q : StreamPipe β}

omit [BufferGrowth] [Dbuf] in
theorem start (h : p.Starts) : ∃ q, StreamPipe.Starts q ∧ p.StandsFor q := by
  obtain ⟨t, buffer, hempty, rfl⟩ := h
  exact ⟨_, ⟨t, buffer, hempty, rfl⟩, le_rfl, Nat.zero_le _, Nat.zero_le _, List.prefix_rfl, fun _ => ⟨rfl, rfl⟩, rfl,
    fun _ => ⟨rfl, rfl⟩⟩

omit [BufferGrowth] [Dbuf] [ByteQueue β] in
/-- A step of the sender that leaves the bytes alone. -/
theorem move (h : p.StandsFor q) {s : QuicSender} (hhanded : s.run.handed = p.sender.run.handed)
    (haccepted : s.run.accepted = p.sender.run.accepted) (hbodies : s.bodies = p.sender.bodies)
    (hsending : s.failed = false → p.sender.failed = false ∧ s.unsent = p.sender.unsent) :
    StandsFor { p with sender := s } q := by
  refine ⟨?_, ?_, h.unread, ?_, fun hfailed => ?_, h.session, fun hsome => ?_⟩
  · show p.arrived ≤ s.run.handed.length
    rw [hhanded]
    exact h.arrived
  · show s.run.handed.length ≤ streamWindow
    rw [hhanded]
    exact h.window
  · show q.bodies <+: s.bodies
    rw [hbodies]
    exact h.bodies
  · obtain ⟨hbefore, hunsent⟩ := hsending hfailed
    obtain ⟨hsame, hleft⟩ := h.sending hbefore
    exact ⟨hsame.trans hbodies.symm, hleft.trans hunsent.symm⟩
  · show _ ∧ q.onWire = s.run.accepted.drop p.arrived
    rw [haccepted]
    exact h.ready hsome

/-- What `sendAll` writes goes on the wire. -/
theorem write (h : p.StandsFor q) (hsends : p.sender.Sends) (hphase : p.sender.phase = .write) :
    ∃ q', PipeStep q q' ∧ StandsFor { p with sender := p.sender.write } q' := by
  obtain ⟨-, hfailed⟩ : p.sender.unsent ≠ [] ∧ p.sender.failed = false := by
    have hat := hsends.atPhase
    rwa [QuicSender.AtPhase, hphase] at hat
  obtain ⟨hbodies, hunsent⟩ := h.sending hfailed
  refine ⟨_, .write (p.sender.run.stream.write p.sender.unsent).1, h.arrived, h.window, h.unread, h.bodies,
    fun _ => ⟨hbodies, ?_⟩, h.session, fun hsome => ?_⟩
  · rw [hunsent]
    rfl
  · obtain ⟨hready, hwire⟩ := h.ready hsome
    have haccepted : p.sender.write.run.accepted =
        p.sender.run.accepted ++ p.sender.unsent.take (p.sender.run.stream.write p.sender.unsent).1 := rfl
    refine ⟨hready, ?_⟩
    show _ = p.sender.write.run.accepted.drop p.arrived
    rw [haccepted, hwire, hunsent, List.drop_append_of_le_length (h.arrived.trans hsends.accounts.handed.length_le)]

theorem resume (h : p.StandsFor q) (hsends : p.sender.Sends) {s : QuicSender} (hresume : p.sender.resume = some s) :
    ∃ q', ReflTransGen PipeStep q q' ∧ StandsFor { p with sender := s } q' := by
  cases QuicSender.resume_resumed hresume with
  | written phase next =>
    subst next
    obtain ⟨q', hq', hstands⟩ := h.write hsends phase
    exact ⟨q', .single hq', hstands⟩
  | closed phase closed next | erased phase erased next =>
    subst next
    exact ⟨q, .refl, h.move rfl rfl rfl nofun⟩
  | opened phase opened next | found phase found next | writable phase room next =>
    subst next
    exact ⟨q, .refl, h.move rfl rfl rfl fun hfailed => ⟨hfailed, rfl⟩⟩

omit [BufferGrowth] in
/-- After a failed call no message goes on the wire. -/
theorem sendMessage (h : p.StandsFor q) (hsends : p.sender.Sends) {body : Bytes} (hlength : body.length < 2 ^ 32)
    {r : Except TransportError Unit} (hreturned : p.sender.phase = .returned r) :
    ∃ q', ReflTransGen PipeStep q q' ∧ StandsFor { p with sender := { p.sender with
      bodies := p.sender.bodies ++ [body], phase := .send, unsent := frame body } } q' := by
  have hat := hsends.atPhase
  rw [QuicSender.AtPhase, hreturned] at hat
  cases r with
  | ok =>
    obtain ⟨hbodies, hunsent⟩ := h.sending hat.2
    refine ⟨_, .single (.sendMessage body hlength (hunsent.trans hat.1)), h.arrived, h.window, h.unread, ?_, fun _ => ?_,
      h.session, h.ready⟩
    · show q.bodies ++ [body] <+: p.sender.bodies ++ [body]
      rw [hbodies]
    · exact ⟨congrArg (· ++ [body]) hbodies, rfl⟩
  | error e =>
    refine ⟨q, .refl, h.arrived, h.window, h.unread, h.bodies.trans (List.prefix_append _ _), fun hfailed => ?_,
      h.session, h.ready⟩
    cases hat.1.symm.trans hfailed

theorem send (h : p.StandsFor q) (hsends : p.sender.Sends) {s : QuicSender} (hst : SendStep p.arrived p.sender s) :
    ∃ q', ReflTransGen PipeStep q q' ∧ StandsFor { p with sender := s } q' := by
  cases hst with
  | sendMessage body hlength hreturned => exact h.sendMessage hsends hlength hreturned
  | resume hresume => exact h.resume hsends hresume
  | @worker e hallows run hstep =>
    obtain ⟨haccepted, hmore, hwindow⟩ := hallows.streamStep hstep
    refine ⟨q, .refl, h.arrived.trans hmore, hwindow.trans (max_le h.window le_rfl), h.unread, h.bodies, h.sending,
      h.session, fun hsome => ?_⟩
    show _ ∧ q.onWire = run.accepted.drop p.arrived
    rw [haccepted]
    exact h.ready hsome
  | close | streamClose => exact ⟨q, .refl, h.move rfl rfl rfl fun hfailed => ⟨hfailed, rfl⟩⟩

omit [Dbuf] [ByteQueue β] in
/-- The window is smaller than the buffer, so that nothing is dropped. -/
theorem onReceivedData (h : p.StandsFor q) {data : Bytes}
    (hhanded : p.arrived + data.length ≤ p.sender.run.handed.length) {b : CircularByteBuffer}
    (hb : p.receiver.stream = some b) : (b.onReceivedData data).contents = b.contents ++ data := by
  have hunread := h.unread
  rw [QuicReceiver.unread_some hb] at hunread
  have hwindow := h.window
  have hlarge : streamWindow < maxBufferSize := by decide
  apply CircularByteBuffer.onReceivedData_contents
  rw [CircularByteBuffer.size]
  omega

theorem arrive (h : p.StandsFor q) (hsends : p.sender.Sends) {data : Bytes}
    (hhanded : p.arrived + data.length ≤ p.sender.run.handed.length)
    (hdata : data = (p.sender.run.handed.drop p.arrived).take data.length) :
    ∃ q', ReflTransGen PipeStep q q' ∧ (p.arrive data).StandsFor q' := by
  cases hb : p.receiver.stream with
  | none =>
    have hnone : (p.arrive data).receiver = p.receiver := by
      rw [QuicPipe.arrive, hb, Option.map_none, ← hb]
    refine ⟨q, .refl, hhanded, h.window, ?_, h.bodies, h.sending, ?_, ?_⟩
    · rw [hnone]
      exact h.unread.trans (Nat.le_add_right _ _)
    · rw [hnone]
      exact h.session
    · rw [hnone, hb]
      nofun
  | some b =>
    obtain ⟨hready, hwire⟩ := h.ready (hb ▸ rfl)
    have hprefix : data = q.onWire.take data.length := by
      obtain ⟨rest, hrest⟩ := hsends.accounts.handed
      rw [hwire, ← hrest, List.drop_append_of_le_length h.arrived, List.take_append_of_le_length]
      · exact hdata
      · rw [List.length_drop]
        omega
    have hunread : (p.arrive data).receiver.unread = p.receiver.unread ++ data := by
      rw [QuicReceiver.unread_some hb, ← h.onReceivedData hhanded hb, QuicPipe.arrive, QuicReceiver.unread, hb]
      rfl
    refine ⟨_, .single (.arrive data.length), hhanded, h.window, ?_, h.bodies, h.sending, ?_, fun _ => ⟨?_, ?_⟩⟩
    · rw [hunread, List.length_append]
      exact Nat.add_le_add_right h.unread _
    · have hsession : (p.arrive data).receiver.session =
          { p.receiver.session with ready := (p.arrive data).receiver.unread } := rfl
      rw [hsession, h.session]
    · rw [hunread, ← hprefix, ← hready]
    · show q.onWire.drop _ = p.sender.run.accepted.drop (p.arrived + data.length)
      rw [hwire, List.drop_drop]

omit [BufferGrowth] in
/-- What a round reads leaves the stream's buffer. -/
theorem round (h : p.StandsFor q) {w : World} {r : QuicReceiver β} (hround : p.receiver.round w = some r) :
    ∃ q', PipeStep q q' ∧ StandsFor { p with receiver := r } q' := by
  obtain ⟨s, hs, hr⟩ := Option.map_eq_some_iff.mp hround
  rw [h.session] at hs
  cases hb : p.receiver.stream with
  | none =>
    have hnone : p.receiver.unread = [] := by
      rw [QuicReceiver.unread, hb]
      rfl
    have hoffered : p.receiver.offers.1.bytes = [] := by
      have hsplit := p.receiver.offers_split
      rw [hnone] at hsplit
      exact (List.append_eq_nil_iff.mp hsplit.symm).1
    rw [Session.round_later, Option.map_eq_some_iff] at hs
    obtain ⟨t, ht, rfl⟩ := hs
    have hround' : q.receiver.round w p.receiver.offers.1 q.receiver.ready =
        some { t with ready := t.ready ++ q.receiver.ready } := by
      have hlater := q.receiver.round_later w p.receiver.offers.1 q.receiver.ready q.receiver.ready
      rwa [ht] at hlater
    refine ⟨_, .round (by rw [hoffered, List.nil_append]) hround', h.arrived, h.window, ?_, h.bodies, h.sending, ?_, ?_⟩
    all_goals
      subst hr
      simp [QuicReceiver.unread, QuicReceiver.session, hb]
  | some b =>
    obtain ⟨hready, hwire⟩ := h.ready (hb ▸ rfl)
    have hsplit := p.receiver.offers_split
    have hunread := QuicReceiver.unread_some hb
    rw [← hready] at hs hsplit
    have hcontents : b.contents.drop (b.size - s.ready.length) = s.ready := by
      have hleft := Session.round_left hs
      rw [← hsplit, hready, hunread] at hleft
      exact (List.suffix_iff_eq_drop.mp hleft).symm
    have hrest : r.unread = s.ready := by
      subst hr
      rw [QuicReceiver.unread, hb]
      exact hcontents
    refine ⟨_, .round hsplit hs, h.arrived, h.window, ?_, h.bodies, h.sending, ?_, fun _ => ⟨?_, hwire⟩⟩
    · show r.unread.length ≤ p.arrived
      have hle := h.unread
      rw [hrest, ← hcontents, List.length_drop]
      rw [hunread] at hle
      omega
    · show r.session = { s with ready := r.unread }
      subst hr
      rfl
    · exact hrest.symm

/-- **Step.** -/
theorem step (h : p.StandsFor q) (hsends : p.sender.Sends) (hsafe : p.sender.safe = true) (hst : QuicStep p p') :
    ∃ q', ReflTransGen PipeStep q q' ∧ p'.StandsFor q' := by
  cases hst with
  | send hstep => exact h.send hsends hstep
  | arrive data hhanded hdata => exact h.arrive hsends hhanded (hdata hsafe)
  | round hround =>
    obtain ⟨q', hq', hstands⟩ := h.round hround
    exact ⟨q', .single hq', hstands⟩
  | close e hstep => exact ⟨q, .refl, h.arrived, h.window, h.unread, h.bodies, h.sending, h.session, h.ready⟩
  | streamClose =>
    refine ⟨q, .refl, h.arrived, h.window, Nat.zero_le _, h.bodies, h.sending, ?_, nofun⟩
    have hsession := h.session
    simp_all [QuicReceiver.session, QuicReceiver.unread]

end QuicPipe.StandsFor

/-- As long as every `write` is safe, a QUIC connection is a stream, whatever its tasks do. -/
theorem quic_simulates_stream :
    Simulation (σ := QuicPipe β) QuicPipe.Starts QuicStep StreamPipe.Starts PipeStep
      fun p q => p.sender.Sends ∧ (p.sender.safe = true → p.StandsFor q) where
  start p h := by
    obtain ⟨q, hq, hstands⟩ := QuicPipe.StandsFor.start h
    obtain ⟨t, buffer, -, rfl⟩ := h
    exact ⟨q, hq, .start, fun _ => hstands⟩
  follow p q p' := by
    rintro ⟨hsends, hstands⟩ hst
    have hsends' : p'.sender.Sends := by
      cases hst with
      | send hstep => exact hsends.step hstep
      | arrive | round | close | streamClose => exact hsends
    have hbefore : p'.sender.safe = true → p.sender.safe = true := by
      cases hst with
      | send hstep => exact hstep.safe
      | arrive | round | close | streamClose => exact id
    by_cases hsafe : p'.sender.safe = true
    · obtain ⟨q', hq', hstands'⟩ := (hstands (hbefore hsafe)).step hsends (hbefore hsafe) hst
      exact ⟨q', hq', hsends', fun _ => hstands'⟩
    · exact ⟨q, .refl, hsends', fun h => absurd h hsafe⟩

/-- **Payloads.** If no `write` so far could move the send buffer under bytes in flight, and both ends use the same
libraries and dictionary, the calls of `receiveMessage` that take a frame return the payloads that were sent, in order
and once; and as long as no `sendAll` has failed and the stream exists, what they have not taken is in one of the buffers
or on its way. -/
theorem quic_payloads_in_order {lib : CompressionLibraries} (hlib : lib.RoundTrips) {dict : Option Bytes}
    {p : QuicPipe β} (h : Reachable QuicPipe.Starts QuicStep p) (hsafe : p.sender.safe = true) {payloads : List Bytes}
    (hsent : List.Forall₂ (SentAs lib dict .quic) payloads p.sender.bodies)
    (hlimits : ∀ payload ∈ payloads, payload.length < 2 ^ 31 ∧ payload.length ≤ p.receiver.messageSizeLimit)
    (hreceivers : ∀ f ∈ p.receiver.taken, Receiver lib dict f.world p.receiver.toBaseTransport) :
    p.receiver.taken.map (·.result) =
        (payloads.take p.receiver.taken.length).map (fun payload => .ok (.data { data := payload })) ∧
      (p.sender.failed = false → p.receiver.stream.isSome →
        ByteQueue.contents p.receiver.recvBuffer ++ p.receiver.unread ++
            (p.sender.run.accepted.drop p.arrived ++ p.sender.unsent) =
          frames (p.sender.bodies.drop p.receiver.taken.length)) := by
  obtain ⟨q, hq, -, hstands⟩ := quic_simulates_stream.reachable h
  have hstands := hstands hsafe
  have hbase : p.receiver.toBaseTransport = q.receiver.toBaseTransport :=
    congrArg Session.toBaseTransport hstands.session
  have hbuffer : p.receiver.recvBuffer = q.receiver.recvBuffer := congrArg Session.recvBuffer hstands.session
  have htaken : p.receiver.taken = q.receiver.taken := congrArg Session.taken hstands.session
  rw [hbase] at hlimits hreceivers
  rw [htaken] at hreceivers
  -- the messages behind a failed call have not reached the stream
  obtain ⟨more, hmore⟩ := hstands.bodies
  have hreached : List.Forall₂ (SentAs lib dict .quic) (payloads.take q.bodies.length) q.bodies := by
    have htake := List.forall₂_take q.bodies.length hsent
    rwa [← hmore, List.take_left] at htake
  obtain ⟨hresults, hpending⟩ := (StreamPipe.inOrder_of_reachable hq).payloads hlib (by decide) hreached
    (fun payload hpayload => hlimits payload (List.mem_of_mem_take hpayload)) hreceivers
  rw [htaken]
  refine ⟨?_, fun hfailed hsome => ?_⟩
  · have hfew : q.receiver.taken.length ≤ q.bodies.length := by
      have hlength := congrArg List.length hresults
      simp only [List.length_map, List.length_take] at hlength
      omega
    rwa [List.take_take, min_eq_left hfew] at hresults
  · obtain ⟨hready, hwire⟩ := hstands.ready hsome
    obtain ⟨hbodies, hunsent⟩ := hstands.sending hfailed
    rw [hbuffer, ← hready, ← hwire, ← hunsent, ← hbodies, hpending]

end

/-! ### A compressed payload, in pieces -/

/-- One packet has carried the frame. -/
def repeatedSender : QuicSender where
  run :=
    { stream := { sendBuffer := ⟨repeatedFrame, 16384, by decide⟩, unackedBytes := 20, streamOffset := 20 }
      accepted := repeatedFrame
      handed := repeatedFrame }
  bodies := [repeatedFrame.drop 4]

/-- The receiving end after some rounds, in the first of which the frame is there. -/
def repeatedReceiver : Nat → QuicReceiver Ring
  | 0 => { zstdReady := true, recvBuffer := .empty 16, stream := some ⟨repeatedFrame, 16384, by decide⟩ }
  | n + 1 => (@QuicReceiver.round _ Dbuf.little _ repeatedWorld (repeatedReceiver n)).getD (repeatedReceiver n)

theorem repeatedReceiver_round (n : Nat)
    (h : (@QuicReceiver.round _ Dbuf.little _ repeatedWorld (repeatedReceiver n)).isSome) :
    @QuicReceiver.round _ Dbuf.little _ repeatedWorld (repeatedReceiver n) = some (repeatedReceiver (n + 1)) := by
  obtain ⟨r, hr⟩ := Option.isSome_iff_exists.mp h
  rw [repeatedReceiver, hr, Option.getD_some]

theorem quic_payloads_in_order_repeated :
    letI := BufferGrowth.exact
    letI := Dbuf.little
    ∃ p : QuicPipe Ring, Reachable QuicPipe.Starts QuicStep p ∧
      p.receiver.taken.map (·.result) = [.ok (.data { data := repeatedPayload })] := by
  let : BufferGrowth := .exact
  let : Dbuf := .little
  have hframe : frame (repeatedFrame.drop 4) = repeatedFrame := by decide +kernel
  have hsent : SentAs repeatedLibraries none .quic repeatedPayload (repeatedFrame.drop 4) := by
    refine ⟨fun _ => some .lz4, 0, {}, { message := .data { data := repeatedPayload } }, nofun, rfl, ?_⟩
    decide +kernel
  have hstart : Reachable QuicPipe.Starts QuicStep
      ({ receiver := { zstdReady := true, recvBuffer := .empty 16 } } : QuicPipe Ring) :=
    .start ⟨_, .empty 16, rfl, rfl⟩
  have hcalled := hstart.next (.send (.sendMessage (repeatedFrame.drop 4) (by decide) rfl))
  rw [hframe] at hcalled
  have hpolled := ((hcalled.next (.send (.resume rfl))).next (.send (.resume rfl))).next (.send (.resume rfl))
  have hwritten := hpolled.next (.send (.resume rfl))
  have hflushed := hwritten.next (.send (.worker .flush (show _ = true from rfl) rfl))
  have hpacket := hflushed.next (.send (.worker (.handOver 20) ⟨by decide, by decide⟩ rfl))
  have hsender := hpacket.next (.send (.worker .packetSent trivial rfl))
  have harrived : Reachable QuicPipe.Starts QuicStep
      ({ sender := repeatedSender, arrived := 20, receiver := repeatedReceiver 0 } : QuicPipe Ring) :=
    hsender.next (.arrive repeatedFrame (by decide) fun _ => rfl)
  have hread := harrived.next (.round (repeatedReceiver_round 0 (by decide +kernel)))
  have hlast := hread.next (.round (repeatedReceiver_round 1 (by decide +kernel)))
  have hlength := repeatedPayload_length
  have htaken : (repeatedReceiver 2).taken.length = 1 := by decide +kernel
  have hresults := quic_payloads_in_order repeatedLibraries_roundTrips hlast rfl (.cons hsent .nil) ?_ ?_
  · have hmessages := hresults.1
    rw [htaken] at hmessages
    exact ⟨_, hlast, hmessages⟩
  · intro payload hpayload
    rw [List.mem_singleton.mp hpayload, hlength]
    decide
  · intro f hf
    obtain rfl := List.mem_singleton.mp hf
    exact ⟨rfl, rfl, fun _ _ _ => rfl, fun _ _ => rfl⟩

end Qunet
