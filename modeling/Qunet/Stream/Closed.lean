import Qunet.Connection.Error
import Qunet.Quic.Closing
import Qunet.Stream.Framing
import Qunet.Ws.Transport

/-!
# A peer that closes its transport

* `ClosingRead` : the reads that tell a stream transport that it is closed;
* `ReachesRead` : a call of `receiveMessage` comes to a read;
* `ReportsClosure` : the errors with which `receiveMessage` reports a closed peer, for each transport;
* `ReportsClosure.error`, `ReportsClosure.isFatal_iff` : what they are, and what the worker takes them for.
-/

namespace Qunet
open Lib

/-- No bytes, or the error of a closed QUIC connection. A QUIC stream that the peer has closed on an open connection is
not among them, since it is reported by another error: see `QuicConnection.receive_erased`. -/
inductive ClosingRead : ConnectionType → StreamRead → Prop where
  | tcp : ClosingRead .tcp (.bytes [])
  /-- It ends `receiveMessage` in the same way, though `QuicConnection::receive` never returns it. -/
  | quic : ClosingRead .quic (.bytes [])
  | connection {c : QuicConnection} {unread : Option Bytes} {room : Nat} {e : TransportError}
      (hclosed : c.closed = true ∨ c.cancelled = true) (hroom : 0 < room)
      (h : c.receive unread room = some (.error e)) : ClosingRead .quic (.error e)

/-- Where there is room, `receive` waits for data. -/
theorem QuicConnection.receive_ne_nil (c : QuicConnection) (unread : Option Bytes) {room : Nat} (hroom : 0 < room) :
    c.receive unread room ≠ some (.ok []) := by
  unfold receive receiveRound
  split_ifs
  · nofun
  · omega
  · nofun
  · rcases unread with _ | _ | ⟨b, bs⟩
    · nofun
    · nofun
    · obtain ⟨room, rfl⟩ := Nat.exists_eq_add_of_lt hroom
      simp

/-- `stream_close` has erased the stream. -/
theorem QuicConnection.receive_erased {c : QuicConnection} (hclosed : c.closed = false)
    (hcancelled : c.cancelled = false)
    {room : Nat} (hroom : 0 < room) : c.receive none room = some (.error (.custom .invalidArgument)) := by
  unfold receive receiveRound
  simp [hclosed, hcancelled, Nat.ne_of_gt hroom]

/-- The error that a read ends a call of `receiveMessage` with. -/
def StreamRead.ending : StreamRead → Option TransportError
  | .error e => some e
  | .bytes [] => some (.custom .closed)
  | .bytes (_ :: _) => none

theorem ClosingRead.type_eq {type : ConnectionType} {read : StreamRead} (h : ClosingRead type read) :
    type = .tcp ∨ type = .quic := by
  cases h with
  | tcp => exact Or.inl rfl
  | quic => exact Or.inr rfl
  | connection => exact Or.inr rfl

/-- A closed QUIC connection reports `Closed`, and so does a read of no bytes. -/
theorem ClosingRead.ending_eq {type : ConnectionType} {read : StreamRead} (h : ClosingRead type read) :
    read.ending = some (.custom .closed) := by
  cases h with
  | tcp => rfl
  | quic => rfl
  | @connection c unread room e hclosed hroom h =>
    unfold QuicConnection.receive QuicConnection.receiveRound at h
    by_cases hc : c.closed = true
    · rw [if_pos hc] at h
      cases h
      rfl
    · rw [if_neg hc, if_neg (by omega), if_pos (hclosed.resolve_left hc)] at h
      cases h
      rfl

section
variable [Dbuf] {β : Type} [ByteQueue β]

/-- In this call the loop reads from the socket again and again, and at last this read comes. -/
inductive ReachesRead (w : World) (read : StreamRead) : StreamTransport β → Prop where
  | here {s : StreamTransport β} {stream : StreamInput} (hneeds : NeedsData s) (hroom : ¬ NoBufferSpace s.recvBuffer)
      (hstream : s.stream = read :: stream) : ReachesRead w read s
  | bytes {s : StreamTransport β} {b : UInt8} {bs : Bytes} {stream : StreamInput} (hneeds : NeedsData s)
      (hroom : ¬ NoBufferSpace s.recvBuffer)
      (hreceive : s.stream.receive (ByteQueue.writeWindow (makeRoom s.recvBuffer)) = some (.ok (b :: bs), stream))
      (hrest : ReachesRead w read
        { s with recvBuffer := ByteQueue.advanceWrite (b :: bs) (makeRoom s.recvBuffer), stream
                 tracker := s.tracker.onDownPacket w.now (b :: bs).length }) : ReachesRead w read s
  | empty {s : StreamTransport β} (hzero : Announces s 0)
      (hrest : ReachesRead w read { s with recvBuffer := ByteQueue.skip 4 s.recvBuffer }) : ReachesRead w read s

theorem ReachesRead.loop_returns {w : World} {read : StreamRead} {e : TransportError} {s : StreamTransport β}
    (h : ReachesRead w read s) (he : read.ending = some e) (fuel : Nat) (hfuel : s.rounds < fuel) :
    ∃ s', receiveLoop w fuel s = .returned (.error e) s' := by
  induction h generalizing fuel with
  | @here s stream hneeds hroom hstream =>
    obtain ⟨fuel, rfl⟩ := Nat.exists_eq_add_of_lt hfuel
    unfold receiveLoop
    rw [receiveRound_needsData w hneeds, waitForData, if_neg hroom, hstream]
    cases read with
    | error e' =>
      cases he
      exact ⟨_, rfl⟩
    | bytes bs =>
      cases bs with
      | nil =>
        cases he
        exact ⟨_, rfl⟩
      | cons b bs => cases he
  | @bytes s b bs stream hneeds hroom hreceive hrest ih =>
    have hless := rounds_read hreceive (s.tracker.onDownPacket w.now (b :: bs).length)
    obtain ⟨fuel, rfl⟩ := Nat.exists_eq_add_of_lt hfuel
    obtain ⟨s', hloop⟩ := ih (s.rounds + fuel) (by omega)
    refine ⟨s', ?_⟩
    unfold receiveLoop
    rw [receiveRound_needsData w hneeds, waitForData, if_neg hroom]
    dsimp only
    rw [hreceive]
    exact hloop
  | @empty s hzero hrest ih =>
    have hskip := ByteQueue.size_skip hzero.1
    have hfour := hzero.1
    obtain ⟨fuel, rfl⟩ := Nat.exists_eq_add_of_lt hfuel
    obtain ⟨s', hloop⟩ := ih (s.rounds + fuel) (by simp only [StreamTransport.rounds, hskip]; omega)
    refine ⟨s', ?_⟩
    unfold receiveLoop
    rw [receiveRound_empty w hzero]
    exact hloop

end

/-! ## What is reported -/

section
variable [Dbuf]

/-- The peer has closed its transport, and `receiveMessage` returns this error. -/
inductive ReportsClosure : ConnectionType → TransportError → Prop where
  | stream {type : ConnectionType} {read : StreamRead} {β : Type} [ByteQueue β] {w : World} {s s' : StreamTransport β}
      {e : TransportError} (hread : ClosingRead type read) (hreaches : ReachesRead w read s)
      (hreturns : receiveMessage w s = .returned (.error e) s') : ReportsClosure type e
  | closeFrame {type : ConnectionType} {code : UInt16} {reason : String} {w : World} {t t' : BaseTransport}
      {e : TransportError} (htype : type = .webSocket ∨ type = .webSocketTls)
      (hreturns : WsTransport.receiveMessage w t (.ok (.close code reason)) = some (.error e, t')) :
      ReportsClosure type e

/-- A stream reports `Closed`, and a WebSocket its own error with a text. -/
theorem ReportsClosure.error {type : ConnectionType} {e : TransportError} (h : ReportsClosure type e) :
    ((type = .tcp ∨ type = .quic) ∧ e = .custom .closed) ∨
    ((type = .webSocket ∨ type = .webSocketTls) ∧ ∃ text, e = .ws text) := by
  cases h with
  | stream hread hreaches hreturns =>
    obtain ⟨t, hloop⟩ := hreaches.loop_returns hread.ending_eq _ (Nat.lt_succ_self _)
    have heq := hreturns.symm.trans hloop
    simp only [StreamRound.returned.injEq, Except.error.injEq] at heq
    exact Or.inl ⟨hread.type_eq, heq.1⟩
  | closeFrame htype hreturns =>
    simp only [WsTransport.receiveMessage, Option.some.injEq, Prod.mk.injEq, Except.error.injEq] at hreturns
    exact Or.inr ⟨htype, _, hreturns.1.symm⟩

/-- The worker takes the errors of streams for fatal, and no other. -/
theorem ReportsClosure.isFatal_iff {type : ConnectionType} {e : TransportError} (h : ReportsClosure type e) :
    isFatalError (.transport e) = true ↔ type ≠ .webSocket ∧ type ≠ .webSocketTls := by
  obtain ⟨htype, rfl⟩ | ⟨htype, text, rfl⟩ := h.error
  · have hfatal : isFatalError (.transport (.custom .closed)) = true := rfl
    rcases htype with rfl | rfl <;> simp [hfatal]
  · have hkept : isFatalError (.transport (.ws text)) = false := rfl
    rcases htype with rfl | rfl <;> simp [hkept]

end

end Qunet
