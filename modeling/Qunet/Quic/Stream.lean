import Qunet.Lib.Machine
import Qunet.Lib.Reader

/-!
# Streams of a QUIC connection (`quic/QuicStream.cpp`, `QuicConnection::sendStreamData`)

* `CircularByteBuffer`, `QuicStream` : the send buffer, from whose front the acknowledged bytes are dropped, and the
  three counters;
* `StreamEvent`, `streamStep` : a sending task writes, and the worker hands bytes to ngtcp2, waits for the packet to be
  sent, counts the bytes and receives acknowledgements;
* `StreamChange` : what each step does, and where the worker is before it;
* `Accounts` : the buffer and the counters against what was accepted, handed over and acknowledged;
* **`runSteps_accounts`** : they agree in every run;
* **`growsAcked_everyWrite_iff`** : the buffer grows under bytes that ngtcp2 still points to exactly if it grows between
  the hand-over and the counting, with nothing else in flight.
-/

namespace Qunet
open Lib

/-- How `dbuf::CircularByteBuffer` grows when `needed` bytes do not fit into its `capacity`. -/
class BufferGrowth where
  grow : Nat → Nat → Nat
  le_grow : ∀ capacity needed, needed ≤ grow capacity needed

/-- As large as needed, and no larger. -/
@[reducible] def BufferGrowth.exact : BufferGrowth := ⟨fun _ needed => needed, fun _ _ => le_refl _⟩

structure CircularByteBuffer where
  contents : Bytes
  capacity : Nat
  fits : contents.length ≤ capacity
  deriving DecidableEq

namespace CircularByteBuffer

def empty (capacity : Nat) : CircularByteBuffer := ⟨[], capacity, Nat.zero_le _⟩

def size (b : CircularByteBuffer) : Nat := b.contents.length

/-- The only operation that reallocates. -/
def write [BufferGrowth] (data : Bytes) (b : CircularByteBuffer) : CircularByteBuffer where
  contents := b.contents ++ data
  capacity := if b.size + data.length ≤ b.capacity then b.capacity
    else BufferGrowth.grow b.capacity (b.size + data.length)
  fits := by
    rw [List.length_append]
    split
    · assumption
    · exact BufferGrowth.le_grow _ _

/-- `read(nullptr, n)`. -/
def skip (n : Nat) (b : CircularByteBuffer) : CircularByteBuffer where
  contents := b.contents.drop n
  capacity := b.capacity
  fits := by
    rw [List.length_drop]
    exact le_trans (Nat.sub_le _ _) b.fits

end CircularByteBuffer

/-! ## A stream -/

def initialBufferSize : Nat := 16384
def maxBufferSize : Nat := 1024 * 1024 * 16

/-- The offsets of a stream are below `2 ^ 62` in QUIC, so the counters do not wrap around. -/
structure QuicStream where
  sendBuffer : CircularByteBuffer := .empty initialBufferSize
  ackOffset : Nat := 0
  unackedBytes : Nat := 0
  streamOffset : Nat := 0
  closed : Bool := false
  deriving DecidableEq

namespace QuicStream

def unflushedBytes (s : QuicStream) : Nat := if s.closed then 0 else s.sendBuffer.size - s.unackedBytes

/-- A difference of 64-bit numbers. -/
def sendCapacity (s : QuicStream) : Nat :=
  let room : Int := (if s.unackedBytes > 0 then s.sendBuffer.capacity else maxBufferSize) - s.sendBuffer.size
  (room % 2 ^ 64).toNat

/-- The number of bytes that `write` accepts. -/
def write [BufferGrowth] (data : Bytes) (s : QuicStream) : Nat × QuicStream :=
  let maxWrite := s.sendCapacity
  if maxWrite = 0 then (0, s)
  else
    let toWrite := min data.length maxWrite
    (toWrite, { s with sendBuffer := s.sendBuffer.write (data.take toWrite) })

def onAck (offset ackedBytes : Nat) (s : QuicStream) : QuicStream :=
  { s with
    sendBuffer := s.sendBuffer.skip ackedBytes
    unackedBytes := s.unackedBytes - ackedBytes
    ackOffset := offset + ackedBytes }

def peekUnsentData (s : QuicStream) : Bytes := s.sendBuffer.contents.drop s.unackedBytes

def advanceSentData (len : Nat) (s : QuicStream) : QuicStream :=
  { s with unackedBytes := s.unackedBytes + len, streamOffset := s.streamOffset + len }

end QuicStream

/-! ## The worker and the sending tasks -/

/-- Where the worker is. -/
inductive SendTask where
  /-- Outside `sendStreamData`. -/
  | idle
  /-- `unflushedBytes` was not 0, and `sendStreamData` waits for the lock of the send buffer. -/
  | flushing
  /-- ngtcp2 has taken so many bytes, the locks are free, and `sendPacket` is awaited. -/
  | sending (taken : Nat)
  /-- The loop has ended, after a hand-over that was not counted if `taken` is not 0. -/
  | ended (taken : Nat)
  deriving DecidableEq

/-- The bytes that were handed over and are not counted in `m_unackedBytes`. -/
def SendTask.uncounted : SendTask → Nat
  | .idle | .flushing => 0
  | .sending taken | .ended taken => taken

/-- A stream and its worker, with what has happened to the bytes: `accepted` by `write`, `handed` to ngtcp2 and `acked`,
their number. -/
structure StreamRun where
  stream : QuicStream := {}
  worker : SendTask := .idle
  accepted : Bytes := []
  handed : Bytes := []
  acked : Nat := 0
  deriving DecidableEq

inductive StreamEvent where
  /-- A sending task calls `write`. -/
  | write (data : Bytes)
  | close
  /-- The worker comes to the stream in `workerHandleWrites`. -/
  | flush
  /-- `sendStreamData` up to `sendPacket`; ngtcp2 takes so many bytes of the unsent data into the packet. -/
  | handOver (taken : Nat)
  /-- ngtcp2 writes no packet, which ends the worker unless it is due to congestion. -/
  | refuse (congestion : Bool)
  | packetSent
  /-- A failed `send` of the socket is not an error of congestion: it ends the worker. -/
  | packetFailed
  /-- `acked_stream_data_offset`, which ngtcp2 calls when the worker receives a packet. -/
  | ack (ackedBytes : Nat)
  /-- Any other end of the worker: it is cancelled, the connection expires, another packet fails. -/
  | stop

section
variable [BufferGrowth]

/-- ngtcp2 takes a prefix of what it is offered, and acknowledges handed bytes in order. -/
def streamStep (s : StreamRun) : StreamEvent → Option StreamRun
  | .write data =>
    let (written, stream) := s.stream.write data
    some { s with stream, accepted := s.accepted ++ data.take written }
  | .close => some { s with stream := { s.stream with closed := true } }
  | .flush => if s.worker = .idle ∧ s.stream.unflushedBytes ≠ 0 then some { s with worker := .flushing } else none
  | .handOver taken =>
    if s.worker = .flushing ∧ taken ≤ s.stream.peekUnsentData.length then
      some { s with worker := .sending taken, handed := s.handed ++ s.stream.peekUnsentData.take taken }
    else none
  | .refuse congestion =>
    if s.worker = .flushing then some { s with worker := if congestion then .idle else .ended 0 } else none
  | .packetSent =>
    match s.worker with
    | .sending taken => some { s with worker := .idle, stream := s.stream.advanceSentData taken }
    | _ => none
  | .packetFailed =>
    match s.worker with
    | .sending taken => some { s with worker := .ended taken }
    | _ => none
  | .ack ackedBytes =>
    if s.worker = .idle ∧ s.acked + ackedBytes ≤ s.handed.length then
      some { s with stream := s.stream.onAck s.acked ackedBytes, acked := s.acked + ackedBytes }
    else none
  | .stop => some { s with worker := .ended s.worker.uncounted }

/-- What a step does, and where the worker is before it. -/
inductive StreamChange (s : StreamRun) : StreamRun → StreamEvent → Prop where
  | write (data : Bytes) :
    StreamChange s { s with stream := (s.stream.write data).2,
                            accepted := s.accepted ++ data.take (s.stream.write data).1 } (.write data)
  | close : StreamChange s { s with stream := { s.stream with closed := true } } .close
  | flush (idle : s.worker = .idle) : StreamChange s { s with worker := .flushing } .flush
  | handOver (taken : Nat) (flushing : s.worker = .flushing) (offered : taken ≤ s.stream.peekUnsentData.length) :
    StreamChange s { s with worker := .sending taken, handed := s.handed ++ s.stream.peekUnsentData.take taken }
      (.handOver taken)
  | refuse (congestion : Bool) (flushing : s.worker = .flushing) :
    StreamChange s { s with worker := if congestion then .idle else .ended 0 } (.refuse congestion)
  | packetSent {taken : Nat} (sending : s.worker = .sending taken) :
    StreamChange s { s with worker := .idle, stream := s.stream.advanceSentData taken } .packetSent
  | packetFailed {taken : Nat} (sending : s.worker = .sending taken) :
    StreamChange s { s with worker := .ended taken } .packetFailed
  | ack (ackedBytes : Nat) (idle : s.worker = .idle) (handed : s.acked + ackedBytes ≤ s.handed.length) :
    StreamChange s { s with stream := s.stream.onAck s.acked ackedBytes, acked := s.acked + ackedBytes }
      (.ack ackedBytes)
  | stop : StreamChange s { s with worker := .ended s.worker.uncounted } .stop

theorem streamStep_change {s t : StreamRun} {e : StreamEvent} (h : streamStep s e = some t) : StreamChange s t e := by
  cases e with
  | write data =>
    obtain rfl := Option.some.inj h
    exact .write data
  | close =>
    obtain rfl := Option.some.inj h
    exact .close
  | flush =>
    obtain ⟨⟨hidle, -⟩, hsome⟩ := Option.ite_none_right_eq_some.mp h
    obtain rfl := Option.some.inj hsome
    exact .flush hidle
  | handOver taken =>
    obtain ⟨⟨hflushing, htaken⟩, hsome⟩ := Option.ite_none_right_eq_some.mp h
    obtain rfl := Option.some.inj hsome
    exact .handOver taken hflushing htaken
  | refuse congestion =>
    obtain ⟨hflushing, hsome⟩ := Option.ite_none_right_eq_some.mp h
    obtain rfl := Option.some.inj hsome
    exact .refuse congestion hflushing
  | packetSent =>
    simp only [streamStep] at h
    split at h
    · next taken hsending =>
      obtain rfl := Option.some.inj h
      exact .packetSent hsending
    · cases h
  | packetFailed =>
    simp only [streamStep] at h
    split at h
    · next taken hsending =>
      obtain rfl := Option.some.inj h
      exact .packetFailed hsending
    · cases h
  | ack ackedBytes =>
    obtain ⟨⟨hidle, hacked⟩, hsome⟩ := Option.ite_none_right_eq_some.mp h
    obtain rfl := Option.some.inj hsome
    exact .ack ackedBytes hidle hacked
  | stop =>
    obtain rfl := Option.some.inj h
    exact .stop

/-! ## The accounts -/

/-- The buffer and the counters account for every byte. -/
structure Accounts (s : StreamRun) : Prop where
  handed : s.handed <+: s.accepted
  buffer : s.stream.sendBuffer.contents = s.accepted.drop s.acked
  ackOffset : s.stream.ackOffset = s.acked
  streamOffset : s.stream.streamOffset + s.worker.uncounted = s.handed.length
  unackedBytes : s.stream.ackOffset + s.stream.unackedBytes = s.stream.streamOffset

omit [BufferGrowth] in
theorem Accounts.start : Accounts {} := ⟨List.prefix_rfl, rfl, rfl, rfl, rfl⟩

/-- `write` appends what it accepts. -/
theorem QuicStream.write_contents (data : Bytes) (s : QuicStream) :
    (s.write data).2.sendBuffer.contents = s.sendBuffer.contents ++ data.take (s.write data).1 := by
  unfold QuicStream.write
  dsimp only
  split
  · simp
  · rfl

/-- `write` leaves the counters alone. -/
theorem QuicStream.write_counters (data : Bytes) (s : QuicStream) :
    (s.write data).2.ackOffset = s.ackOffset ∧ (s.write data).2.unackedBytes = s.unackedBytes ∧
      (s.write data).2.streamOffset = s.streamOffset := by
  unfold QuicStream.write
  dsimp only
  split <;> exact ⟨rfl, rfl, rfl⟩

omit [BufferGrowth] in
theorem Accounts.acked_le {s : StreamRun} (h : Accounts s) : s.acked ≤ s.handed.length := by
  have hack := h.ackOffset
  have hstream := h.streamOffset
  have hunacked := h.unackedBytes
  omega

omit [BufferGrowth] in
/-- The unsent data is what was accepted behind the handed bytes. -/
theorem Accounts.unsent {s : StreamRun} (h : Accounts s) (hcounted : s.worker.uncounted = 0) :
    s.stream.peekUnsentData = s.accepted.drop s.handed.length := by
  have hack := h.ackOffset
  have hstream := h.streamOffset
  have hunacked := h.unackedBytes
  rw [QuicStream.peekUnsentData, h.buffer, List.drop_drop]
  congr 1
  omega

omit [BufferGrowth] in
/-- Waiting and ending do not touch the bytes. -/
theorem Accounts.move {s : StreamRun} {w : SendTask} (h : Accounts s) (hw : w.uncounted = s.worker.uncounted) :
    Accounts { s with worker := w } :=
  ⟨h.handed, h.buffer, h.ackOffset, by rw [hw]; exact h.streamOffset, h.unackedBytes⟩

omit [BufferGrowth] in
/-- The bytes behind the handed ones are handed over next. -/
theorem Accounts.handOver {s : StreamRun} {taken : Nat} (h : Accounts s) (hcounted : s.worker.uncounted = 0)
    (htaken : taken ≤ s.stream.peekUnsentData.length) :
    Accounts { s with worker := .sending taken, handed := s.handed ++ s.stream.peekUnsentData.take taken } := by
  have hlen : (s.stream.peekUnsentData.take taken).length = taken := List.length_take_of_le htaken
  have hstream := h.streamOffset
  refine ⟨?_, h.buffer, h.ackOffset, ?_, h.unackedBytes⟩
  · obtain ⟨rest, hrest⟩ := h.handed
    refine ⟨rest.drop taken, ?_⟩
    rw [h.unsent hcounted, ← hrest, List.drop_left, List.append_assoc, List.take_append_drop]
  · rw [List.length_append, hlen]
    simp only [SendTask.uncounted]
    omega

omit [BufferGrowth] in
/-- What the packet carried is counted once it is sent. -/
theorem Accounts.advance {s : StreamRun} {taken : Nat} (h : Accounts s) (hsending : s.worker = .sending taken) :
    Accounts { s with worker := .idle, stream := s.stream.advanceSentData taken } := by
  have hstream := h.streamOffset
  have hunacked := h.unackedBytes
  rw [hsending, SendTask.uncounted] at hstream
  refine ⟨h.handed, h.buffer, h.ackOffset, hstream, ?_⟩
  show s.stream.ackOffset + (s.stream.unackedBytes + taken) = s.stream.streamOffset + taken
  omega

omit [BufferGrowth] in
/-- Acknowledged bytes leave the buffer. -/
theorem Accounts.ack {s : StreamRun} {ackedBytes : Nat} (h : Accounts s) (hcounted : s.worker.uncounted = 0)
    (hacked : s.acked + ackedBytes ≤ s.handed.length) :
    Accounts { s with stream := s.stream.onAck s.acked ackedBytes, acked := s.acked + ackedBytes } := by
  have hack := h.ackOffset
  have hstream := h.streamOffset
  have hunacked := h.unackedBytes
  rw [hcounted] at hstream
  refine ⟨h.handed, ?_, rfl, h.streamOffset, ?_⟩
  · show s.stream.sendBuffer.contents.drop ackedBytes = _
    rw [h.buffer, List.drop_drop]
  · show s.acked + ackedBytes + (s.stream.unackedBytes - ackedBytes) = s.stream.streamOffset
    omega

/-- Accepted bytes are appended to the buffer. -/
theorem Accounts.write {s : StreamRun} (h : Accounts s) (data : Bytes) :
    Accounts { s with stream := (s.stream.write data).2,
                      accepted := s.accepted ++ data.take (s.stream.write data).1 } := by
  obtain ⟨hack, hunacked, hstream⟩ := QuicStream.write_counters data s.stream
  refine ⟨h.handed.trans (List.prefix_append _ _), ?_, hack.trans h.ackOffset, ?_, ?_⟩
  · have hacked : s.acked ≤ s.accepted.length := le_trans h.acked_le h.handed.length_le
    rw [QuicStream.write_contents, h.buffer, List.drop_append_of_le_length hacked]
  · rw [hstream]
    exact h.streamOffset
  · rw [hack, hunacked, hstream]
    exact h.unackedBytes

/-- **Step.** Every step keeps the accounts. -/
theorem streamStep_accounts (s : StreamRun) (e : StreamEvent) (t : StreamRun) (hstep : streamStep s e = some t)
    (h : Accounts s) : Accounts t := by
  cases streamStep_change hstep with
  | write data => exact h.write data
  | close => exact ⟨h.handed, h.buffer, h.ackOffset, h.streamOffset, h.unackedBytes⟩
  | flush idle => exact h.move (by rw [idle]; rfl)
  | handOver taken flushing offered => exact h.handOver (by rw [flushing]; rfl) offered
  | refuse congestion flushing =>
    apply h.move
    rw [flushing]
    split <;> rfl
  | packetSent sending => exact h.advance sending
  | packetFailed sending => exact h.move (by rw [sending]; rfl)
  | ack ackedBytes idle handed => exact h.ack (by rw [idle]; rfl) handed
  | stop => exact h.move rfl

/-- **Accounting.** In every run the bytes handed to ngtcp2 are a prefix of those that `write` has accepted, the send
buffer holds the accepted bytes that are not acknowledged, and `m_unackedBytes` is the difference of the offsets, at
most the size of the buffer. -/
theorem runSteps_accounts {events : List StreamEvent} {s : StreamRun} (h : runSteps streamStep {} events = some s) :
    s.handed <+: s.accepted ∧ s.stream.sendBuffer.contents = s.accepted.drop s.acked ∧
      s.stream.ackOffset ≤ s.stream.streamOffset ∧
      s.stream.unackedBytes = s.stream.streamOffset - s.stream.ackOffset ∧
      s.stream.unackedBytes ≤ s.stream.sendBuffer.size := by
  have hacc := runSteps_invariant streamStep_accounts Accounts.start h
  have hhanded := hacc.handed.length_le
  have hack := hacc.ackOffset
  have hstream := hacc.streamOffset
  have hunacked := hacc.unackedBytes
  refine ⟨hacc.handed, hacc.buffer, by omega, by omega, ?_⟩
  rw [CircularByteBuffer.size, hacc.buffer, List.length_drop]
  omega

/-! ## Growing the buffer -/

/-- A call of `write` grows the buffer only if ngtcp2 has no pointers into it. -/
def GrowsAcked (s : StreamRun) (data : Bytes) : Prop :=
  s.stream.sendBuffer.capacity < (s.stream.write data).2.sendBuffer.capacity → s.acked = s.handed.length

/-- No bytes have been handed over without being counted yet, or `m_unackedBytes` shows that other bytes are in flight,
or what is written fits. -/
def WritesSafely (s : StreamRun) (data : Bytes) : Prop :=
  s.worker.uncounted = 0 ∨ 0 < s.stream.unackedBytes ∨
    s.stream.sendBuffer.size + min data.length s.stream.sendCapacity ≤ s.stream.sendBuffer.capacity

/-- `P` holds of every call of `write` in the run. -/
def EveryWrite (P : StreamRun → Bytes → Prop) (events : List StreamEvent) : Prop :=
  EveryStep streamStep (fun s e => ∀ data, e = .write data → P s data) {} events

/-- The buffer grows if what is written does not fit. -/
theorem QuicStream.write_grows_iff (s : QuicStream) (data : Bytes) :
    s.sendBuffer.capacity < (s.write data).2.sendBuffer.capacity ↔
      s.sendBuffer.capacity < s.sendBuffer.size + min data.length s.sendCapacity := by
  have hfits : s.sendBuffer.size ≤ s.sendBuffer.capacity := s.sendBuffer.fits
  unfold QuicStream.write
  dsimp only
  split
  · next hfull =>
    rw [hfull, Nat.min_zero]
    dsimp only
    omega
  · have hlen : (data.take (min data.length s.sendCapacity)).length = min data.length s.sendCapacity := by
      rw [List.length_take]
      omega
    have hgrow := BufferGrowth.le_grow s.sendBuffer.capacity (s.sendBuffer.size + min data.length s.sendCapacity)
    simp only [CircularByteBuffer.write, hlen]
    split <;> omega

omit [BufferGrowth] in
/-- With bytes in flight only the free part of the buffer is filled. -/
theorem QuicStream.fits_of_unacked {s : QuicStream} (h : 0 < s.unackedBytes) :
    s.sendBuffer.size + s.sendCapacity ≤ s.sendBuffer.capacity := by
  have hfits : s.sendBuffer.size ≤ s.sendBuffer.capacity := s.sendBuffer.fits
  unfold QuicStream.sendCapacity
  rw [if_pos h]
  dsimp only
  omega

/-- Between the hand-over of the first bytes and their counting the guard of `sendCapacity` is off. -/
theorem growsAcked_iff {s : StreamRun} (h : Accounts s) (data : Bytes) : GrowsAcked s data ↔ WritesSafely s data := by
  have hack := h.ackOffset
  have hstream := h.streamOffset
  have hunacked := h.unackedBytes
  unfold GrowsAcked WritesSafely
  rw [QuicStream.write_grows_iff]
  constructor
  · intro hgrows
    by_contra hunsafe
    obtain ⟨huncounted, hflight, hlarge⟩ := by simpa only [not_or] using hunsafe
    have hacked := hgrows (by omega)
    omega
  · rintro (hcounted | hflight | hfits) hgrows
    · by_contra hpending
      have hflight : 0 < s.stream.unackedBytes := by omega
      have hfits := QuicStream.fits_of_unacked hflight
      omega
    · have hfits := QuicStream.fits_of_unacked hflight
      omega
    · omega

/-- **Growing.** In a run the buffer never grows under bytes that are handed over and not acknowledged exactly if every
`write` is safe. -/
theorem growsAcked_everyWrite_iff (events : List StreamEvent) :
    EveryWrite GrowsAcked events ↔ EveryWrite WritesSafely events := by
  apply everyStep_congr streamStep_accounts _ Accounts.start
  intro s e t _ h
  exact forall_congr' fun data => imp_congr_right fun _ => growsAcked_iff h data

end

/-- Three bytes are written, of which two are handed over and one is acknowledged. -/
theorem runSteps_accounts_ack :
    letI := BufferGrowth.exact
    ∃ s : StreamRun, s.handed = [1, 2] ∧ s.stream.sendBuffer.contents = [2, 3] ∧ s.handed <+: s.accepted := by
  let : BufferGrowth := .exact
  have h : runSteps streamStep {} [.write [1, 2, 3], .flush, .handOver 2, .packetSent, .ack 1] =
      some { stream := { sendBuffer := ⟨[2, 3], 16384, by decide⟩, ackOffset := 1, unackedBytes := 1, streamOffset := 2 },
             accepted := [1, 2, 3], handed := [1, 2], acked := 1 } := by decide
  exact ⟨_, rfl, rfl, (runSteps_accounts h).1⟩

/-- Ten bytes are handed over. While their packet is being sent, 20000 bytes are written into a buffer of 16384. -/
theorem write_grows_unacked :
    letI := BufferGrowth.exact
    ¬ EveryWrite GrowsAcked
      [.write (List.replicate 10 0), .flush, .handOver 10, .write (List.replicate 20000 1)] := by
  let : BufferGrowth := .exact
  intro h
  have hgrows := (((h _ rfl).2 _ rfl).2 _ rfl).2 _ rfl |>.1 _ rfl
  generalize hdata : List.replicate 20000 (1 : UInt8) = data at hgrows
  have hlen : data.length = 20000 := by rw [← hdata, List.length_replicate]
  refine absurd (hgrows ((QuicStream.write_grows_iff _ _).mpr ?_)) (by decide)
  rw [hlen]
  decide

end Qunet
