import Qunet.Lib.ByteQueue
import Qunet.Udp.Transport

/-!
# Stream transports (`transport/Common.hpp`)

* `BaseTransport` : the part of a transport that decodes, shared by every transport;
* `StreamInput`, `receive` : what the reads of the socket return, however the stream is split;
* `decodeBody` : one frame's body;
* `waitForData`, `receiveRound`, `receiveMessage` : the loop that reads until a frame is complete;
* `streamFrame` : what `sendMessage` writes for a data message.
-/

namespace Qunet
open Lib

structure BaseTransport where
  messageSizeLimit : Nat := sizeMax
  zstdReady : Bool := false
  zstdDict : Bool := false
  tracker : StatTracker := {}

/-- What the read of a stream returns; no bytes mean that the peer has closed it. -/
inductive StreamRead where
  | error (e : TransportError)
  | bytes (bytes : Bytes)

/-- The coming reads, if each had enough room. -/
abbrev StreamInput := List StreamRead

/-- `stream.receive` into `room` bytes: a read that is larger stays for the next call. -/
def StreamInput.receive (room : Nat) : StreamInput → Option (Except TransportError Bytes × StreamInput)
  | [] => none
  | .error e :: rest => some (.error e, rest)
  | .bytes bs :: rest =>
    if bs.length ≤ room then some (.ok bs, rest) else some (.ok (bs.take room), .bytes (bs.drop room) :: rest)

structure StreamTransport (β : Type) extends BaseTransport where
  recvBuffer : β
  stream : StreamInput

namespace BaseTransport

/-- The inherited `decodePreFinalDataMessage`, which reads and writes these fields of a transport. -/
def decodePreFinalDataMessage (w : World) (t : BaseTransport) (m : QunetMessageMeta) :
    Except TransportError QunetMessage × BaseTransport :=
  let udp : UdpTransport := { messageSizeLimit := t.messageSizeLimit, zstdReady := t.zstdReady,
                              zstdDict := t.zstdDict, tracker := t.tracker }
  let r := udp.decodePreFinalDataMessage w m
  (r.1.map (·.message), { t with tracker := r.2.tracker })

end BaseTransport

/-! ## The body of a frame -/

section
variable [Dbuf]

/-- `decodeMeta` on a stream, where no message has a connection id. Nothing is returned where its assertion
`!data.empty()` fails. -/
def decodeStreamMeta : Bytes → Option (Except MessageDecodeError QunetMessageMeta)
  | [] => none
  | msgType :: rest => some (decodeMeta msgType rest false)

/-- The spans that `peek` returns are put together only if the second one is not empty. -/
def combinedSpans (wrpread : Bytes × Bytes) : Bytes :=
  if wrpread.2.isEmpty then wrpread.1 else wrpread.1 ++ wrpread.2

def decodeBody (w : World) (t : BaseTransport) (wrpread : Bytes × Bytes) (length : Nat) :
    Option (Except TransportError QunetMessage × BaseTransport) :=
  match decodeStreamMeta (combinedSpans wrpread) with
  | none => none
  | some (.error e) => some (.error (.decode e), t)
  | some (.ok m) =>
    if m.type ≠ msgData then
      match decodeWithMeta m with
      | .error e => some (.error (.decode e), t)
      | .ok msg => some (.ok msg, { t with tracker := t.tracker.onDownMessage w.now length none none })
    else some (t.decodePreFinalDataMessage w m)

/-! ## Receiving -/

/-- What a round of the loop does; `aborted` is a failed assertion. -/
inductive StreamRound (β : Type) where
  | continue (s : StreamTransport β)
  | waiting (s : StreamTransport β)
  | returned (r : Except TransportError QunetMessage) (s : StreamTransport β)
  | aborted

variable {β : Type} [ByteQueue β]

/-- The size of the window that is wanted before a read. -/
def wantedWindow : Nat := 2048

/-- The window is small, and the buffer must not grow. -/
def NoBufferSpace (buffer : β) : Prop :=
  ByteQueue.writeWindow buffer < wantedWindow ∧ ByteQueue.capacity buffer ≥ 1024 * 1024

instance (buffer : β) : Decidable (NoBufferSpace buffer) := inferInstanceAs (Decidable (_ ∧ _))

def makeRoom (buffer : β) : β :=
  if ByteQueue.writeWindow buffer < wantedWindow then ByteQueue.reserve wantedWindow buffer else buffer

def waitForData (w : World) (s : StreamTransport β) : StreamRound β :=
  if NoBufferSpace s.recvBuffer then .returned (.error (.custom .noBufferSpace)) s
  else
    let buffer := makeRoom s.recvBuffer
    match s.stream.receive (ByteQueue.writeWindow buffer) with
    | none => .waiting { s with recvBuffer := buffer }
    | some (.error e, stream) => .returned (.error e) { s with recvBuffer := buffer, stream }
    | some (.ok [], stream) => .returned (.error (.custom .closed)) { s with recvBuffer := buffer, stream }
    | some (.ok (b :: bs), stream) =>
      .continue { s with recvBuffer := ByteQueue.advanceWrite (b :: bs) buffer, stream
                         tracker := s.tracker.onDownPacket w.now (b :: bs).length }

/-- The length that the first four bytes of the buffer announce. -/
def announcedLength (buffer : β) : Nat := (Dbuf.u32.read (ByteQueue.front 4 buffer)).toNat

/-- The frame is complete: decode its body, and skip it whatever the result. -/
def takeFrame (w : World) (s : StreamTransport β) (length : Nat) : StreamRound β :=
  let buffer := ByteQueue.skip 4 s.recvBuffer
  match decodeBody w s.toBaseTransport (ByteQueue.peek length buffer) length with
  | none => .aborted
  | some (r, t) => .returned r { s with toBaseTransport := t, recvBuffer := ByteQueue.skip length buffer }

/-- Above the limit; a limit of 0 is none. -/
def ExceedsLimit (s : StreamTransport β) (length : Nat) : Prop :=
  s.messageSizeLimit ≠ 0 ∧ length > s.messageSizeLimit

instance (s : StreamTransport β) (length : Nat) : Decidable (ExceedsLimit s length) :=
  inferInstanceAs (Decidable (_ ∧ _))

def receiveRound (w : World) (s : StreamTransport β) : StreamRound β :=
  if ByteQueue.size s.recvBuffer < 4 then waitForData w s
  else
    let length := announcedLength s.recvBuffer
    if length = 0 then .continue { s with recvBuffer := ByteQueue.skip 4 s.recvBuffer }
    else if ExceedsLimit s length then .returned (.error (.custom .messageTooLong)) s
    else if ByteQueue.size s.recvBuffer < 4 + length then waitForData w s
    else takeFrame w s length

/-! ### What a round does -/

/-- The length of the next frame has arrived, and is `length`. -/
def Announces (s : StreamTransport β) (length : Nat) : Prop :=
  4 ≤ ByteQueue.size s.recvBuffer ∧ announcedLength s.recvBuffer = length

/-- Neither a whole frame nor a length that is too large is in the buffer. -/
def NeedsData (s : StreamTransport β) : Prop :=
  ByteQueue.size s.recvBuffer < 4 ∨
    ∃ length, Announces s length ∧ length ≠ 0 ∧ ¬ ExceedsLimit s length ∧ ByteQueue.size s.recvBuffer < 4 + length

theorem receiveRound_needsData (w : World) {s : StreamTransport β} (h : NeedsData s) :
    receiveRound w s = waitForData w s := by
  unfold receiveRound
  rcases h with hfour | ⟨length, ⟨hfour, rfl⟩, hpos, hlimit, hshort⟩
  · rw [if_pos hfour]
  · rw [if_neg (by omega)]
    dsimp only
    rw [if_neg hpos, if_neg hlimit, if_pos hshort]

theorem receiveRound_empty (w : World) {s : StreamTransport β} (h : Announces s 0) :
    receiveRound w s = .continue { s with recvBuffer := ByteQueue.skip 4 s.recvBuffer } := by
  unfold receiveRound
  have hfour := h.1
  rw [if_neg (by omega)]
  dsimp only
  rw [if_pos h.2]

theorem receiveRound_tooLong (w : World) {s : StreamTransport β} {length : Nat} (h : Announces s length)
    (hpos : length ≠ 0) (hlimit : ExceedsLimit s length) :
    receiveRound w s = .returned (.error (.custom .messageTooLong)) s := by
  unfold receiveRound
  obtain ⟨hfour, rfl⟩ := h
  rw [if_neg (by omega)]
  dsimp only
  rw [if_neg hpos, if_pos hlimit]

theorem receiveRound_complete (w : World) {s : StreamTransport β} {length : Nat} (h : Announces s length)
    (hpos : length ≠ 0) (hlimit : ¬ ExceedsLimit s length) (hsize : 4 + length ≤ ByteQueue.size s.recvBuffer) :
    receiveRound w s = takeFrame w s length := by
  unfold receiveRound
  obtain ⟨hfour, rfl⟩ := h
  rw [if_neg (by omega)]
  dsimp only
  rw [if_neg hpos, if_neg hlimit, if_neg (by omega)]

/-- The four kinds of rounds. -/
theorem receiveRound_kinds (s : StreamTransport β) :
    NeedsData s ∨ Announces s 0 ∨
      ∃ length, Announces s length ∧ length ≠ 0 ∧
        (ExceedsLimit s length ∨ ¬ ExceedsLimit s length ∧ 4 + length ≤ ByteQueue.size s.recvBuffer) := by
  by_cases hfour : ByteQueue.size s.recvBuffer < 4
  · exact Or.inl (Or.inl hfour)
  · have hannounces : Announces s (announcedLength s.recvBuffer) := ⟨by omega, rfl⟩
    by_cases hzero : announcedLength s.recvBuffer = 0
    · exact Or.inr (Or.inl (hzero ▸ hannounces))
    · by_cases hlimit : ExceedsLimit s (announcedLength s.recvBuffer)
      · exact Or.inr (Or.inr ⟨_, hannounces, hzero, Or.inl hlimit⟩)
      · by_cases hshort : ByteQueue.size s.recvBuffer < 4 + announcedLength s.recvBuffer
        · exact Or.inl (Or.inr ⟨_, hannounces, hzero, hlimit, hshort⟩)
        · exact Or.inr (Or.inr ⟨_, hannounces, hzero, Or.inr ⟨hlimit, by omega⟩⟩)

/-- The rounds of the loop, at most `fuel` of them. -/
def receiveLoop (w : World) : Nat → StreamTransport β → StreamRound β
  | 0, s => .continue s
  | fuel + 1, s =>
    match receiveRound w s with
    | .continue s => receiveLoop w fuel s
    | result => result

/-- The bytes that the coming reads bring. -/
def StreamInput.bytes (stream : StreamInput) : Bytes :=
  stream.flatMap fun
    | .error _ => []
    | .bytes bs => bs

/-- Every round that continues makes this smaller. -/
def StreamTransport.rounds (s : StreamTransport β) : Nat := 2 * s.stream.bytes.length + ByteQueue.size s.recvBuffer

/-- Within these rounds the loop is left, or waits for the socket (`receiveMessage_leaves`). -/
def receiveMessage (w : World) (s : StreamTransport β) : StreamRound β := receiveLoop w (s.rounds + 1) s

/-! ## Sending -/

def streamBody (msg : DataMessage) : Bytes := encodeDataHeader msg 0 false ++ msg.data

/-- The bytes that `sendMessage` gives to the socket for a data message: `prependLength` keeps the length of what
follows in 32 bits. -/
def streamFrame (msg : DataMessage) : Bytes :=
  Dbuf.u32.write (UInt32.ofNat (streamBody msg).length) ++ streamBody msg

end

end Qunet
