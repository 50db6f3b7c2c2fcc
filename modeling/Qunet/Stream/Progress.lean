import Qunet.Connection.Error
import Qunet.Stream.Framing

/-!
# Errors of a stream, and progress

The worker calls `receiveMessage` again after every error that `isFatalError` does not count as fatal.

* `ProgressOnError` : such a call has taken some bytes out of the receive buffer;
* `Stalls` : before it has taken anything, the call meets a length above the limit, a buffer that must not grow or an
  error of the socket;
* `receiveLoop_takes` : what is pending never grows;
* **`progress_iff`** : a call makes progress exactly if it does not stall, and then its errors are as many as the bytes.
-/

namespace Qunet
open Lib

section
variable [Dbuf] {β : Type} [ByteQueue β]

/-- If the call fails and the worker goes on, some bytes were taken. -/
def ProgressOnError (w : World) (s : StreamTransport β) : Prop :=
  ∀ e s', receiveMessage w s = .returned (.error e) s' → isFatalError (.transport e) = false →
    s'.pending.length < s.pending.length

/-- The states from which a call fails, not fatally, before it has taken anything out of the buffer. -/
inductive Stalls (w : World) : StreamTransport β → Prop where
  | noSpace {s : StreamTransport β} (hneeds : NeedsData s) (hfull : NoBufferSpace s.recvBuffer) : Stalls w s
  | tooLong {s : StreamTransport β} {length : Nat} (hannounces : Announces s length) (hpos : length ≠ 0)
      (hlimit : ExceedsLimit s length) : Stalls w s
  | socket {s : StreamTransport β} {e : TransportError} {stream : StreamInput} (hneeds : NeedsData s)
      (hroom : ¬ NoBufferSpace s.recvBuffer)
      (hreceive : s.stream.receive (ByteQueue.writeWindow (makeRoom s.recvBuffer)) = some (.error e, stream))
      (hfatal : isFatalError (.transport e) = false) : Stalls w s
  | read {s : StreamTransport β} {b : UInt8} {bs : Bytes} {stream : StreamInput} (hneeds : NeedsData s)
      (hroom : ¬ NoBufferSpace s.recvBuffer)
      (hreceive : s.stream.receive (ByteQueue.writeWindow (makeRoom s.recvBuffer)) = some (.ok (b :: bs), stream))
      (hrest : Stalls w { s with recvBuffer := ByteQueue.advanceWrite (b :: bs) (makeRoom s.recvBuffer), stream
                                 tracker := s.tracker.onDownPacket w.now (b :: bs).length }) : Stalls w s

end

/-! ## Waiting -/

theorem StreamInput.receive_error {room : Nat} {stream stream' : StreamInput} {e : TransportError}
    (h : stream.receive room = some (.error e, stream')) : stream.bytes = stream'.bytes := by
  unfold receive at h
  split at h
  · cases h
  · cases h
    rfl
  · split at h <;> cases h

section
variable {β : Type} [ByteQueue β]

/-- Waiting takes nothing, and fails only for lack of space, because of the socket, or because the peer has closed it. -/
theorem waitForData_cases (w : World) (s : StreamTransport β) :
    (NoBufferSpace s.recvBuffer ∧ waitForData w s = .returned (.error (.custom .noBufferSpace)) s) ∨
      (¬ NoBufferSpace s.recvBuffer ∧
        ((∃ s', waitForData w s = .waiting s') ∨
          (∃ e stream s', s.stream.receive (ByteQueue.writeWindow (makeRoom s.recvBuffer)) = some (.error e, stream) ∧
            waitForData w s = .returned (.error e) s' ∧ s'.pending = s.pending) ∨
          (∃ s', waitForData w s = .returned (.error (.custom .closed)) s' ∧ s'.pending = s.pending) ∨
          ∃ b bs stream,
            s.stream.receive (ByteQueue.writeWindow (makeRoom s.recvBuffer)) = some (.ok (b :: bs), stream) ∧
            waitForData w s =
              .continue { s with recvBuffer := ByteQueue.advanceWrite (b :: bs) (makeRoom s.recvBuffer), stream
                                 tracker := s.tracker.onDownPacket w.now (b :: bs).length })) := by
  unfold waitForData
  split
  · next hfull => exact Or.inl ⟨hfull, rfl⟩
  · next hroom =>
    refine Or.inr ⟨hroom, ?_⟩
    dsimp only
    rcases hreceive : s.stream.receive (ByteQueue.writeWindow (makeRoom s.recvBuffer)) with _ | ⟨e | bs, stream⟩
    · exact Or.inl ⟨_, rfl⟩
    · refine Or.inr (Or.inl ⟨e, stream, _, rfl, rfl, ?_⟩)
      simp [StreamTransport.pending, StreamInput.receive_error hreceive]
    · cases bs with
      | nil =>
        refine Or.inr (Or.inr (Or.inl ⟨_, rfl, ?_⟩))
        simp [StreamTransport.pending, (StreamInput.receive_ok hreceive).1]
      | cons b bs => exact Or.inr (Or.inr (Or.inr ⟨b, bs, stream, rfl, rfl⟩))

end

section
variable [Dbuf] {β : Type} [ByteQueue β]

/-! ## Taking -/

/-- A complete frame is taken, whatever its body decodes to. -/
theorem takeFrame_takes {w : World} {s s' : StreamTransport β} {length : Nat}
    {r : Except TransportError QunetMessage} (hsize : 4 + length ≤ ByteQueue.size s.recvBuffer)
    (h : takeFrame w s length = .returned r s') : s'.pending.length < s.pending.length := by
  have hlength := s.pending_length
  have hskip : length ≤ ByteQueue.size (ByteQueue.skip 4 s.recvBuffer) := by
    rw [ByteQueue.size_skip (by omega)]
    omega
  unfold takeFrame at h
  dsimp only at h
  split at h
  · cases h
  · cases h
    have hinner := pending_skip (s := s) (show 4 ≤ ByteQueue.size s.recvBuffer by omega) s.toBaseTransport
    have houter := pending_skip (s := { s with recvBuffer := ByteQueue.skip 4 s.recvBuffer }) hskip
    rw [houter, hinner, List.length_drop, List.length_drop]
    omega

/-- What is pending never grows, and a call that has not stalled takes something before it fails. -/
theorem receiveLoop_takes {w : World} {fuel : Nat} {s s' : StreamTransport β} {r : Except TransportError QunetMessage}
    (h : receiveLoop w fuel s = .returned r s') :
    s'.pending.length ≤ s.pending.length ∧
      ∀ e, r = .error e → isFatalError (.transport e) = false → ¬ Stalls w s →
        s'.pending.length < s.pending.length := by
  induction fuel generalizing s with
  | zero => cases h
  | succ fuel ih =>
    unfold receiveLoop at h
    rcases receiveRound_kinds s with hneeds | hzero | ⟨length, hannounces, hpos, hkind⟩
    · rw [receiveRound_needsData w hneeds] at h
      rcases waitForData_cases w s with ⟨hfull, hw⟩ | ⟨hroom, hw | hw | hw | hw⟩
      · rw [hw] at h
        cases h
        exact ⟨Nat.le_refl _, fun e _ _ hstalls => absurd (.noSpace hneeds hfull) hstalls⟩
      · obtain ⟨s₁, hw⟩ := hw
        rw [hw] at h
        cases h
      · obtain ⟨e, stream, s₁, hreceive, hw, hpending⟩ := hw
        rw [hw] at h
        cases h
        refine ⟨Nat.le_of_eq (congrArg _ hpending), fun e' he hfatal hstalls => ?_⟩
        cases he
        exact absurd (.socket hneeds hroom hreceive hfatal) hstalls
      · obtain ⟨s₁, hw, hpending⟩ := hw
        rw [hw] at h
        cases h
        refine ⟨Nat.le_of_eq (congrArg _ hpending), fun e' he hfatal => ?_⟩
        cases he
        cases hfatal
      · obtain ⟨b, bs, stream, hreceive, hw⟩ := hw
        rw [hw] at h
        obtain ⟨hle, hless⟩ := ih h
        rw [pending_read hreceive] at hle hless
        exact ⟨hle, fun e he hfatal hstalls =>
          hless e he hfatal fun hrest => hstalls (.read hneeds hroom hreceive hrest)⟩
    · rw [receiveRound_empty w hzero] at h
      have hfour := hzero.1
      have hlength := s.pending_length
      have hskip := pending_skip (s := s) hfour s.toBaseTransport
      obtain ⟨hle, -⟩ := ih h
      rw [hskip, List.length_drop] at hle
      exact ⟨by omega, fun _ _ _ _ => by omega⟩
    · rcases hkind with hlimit | ⟨hlimit, hsize⟩
      · rw [receiveRound_tooLong w hannounces hpos hlimit] at h
        cases h
        exact ⟨Nat.le_refl _, fun e _ _ hstalls => absurd (.tooLong hannounces hpos hlimit) hstalls⟩
      · rw [receiveRound_complete w hannounces hpos hlimit hsize] at h
        cases htake : takeFrame w s length with
        | returned r₁ s₁ =>
          rw [htake] at h
          cases h
          have hless := takeFrame_takes hsize htake
          exact ⟨Nat.le_of_lt hless, fun _ _ _ _ => hless⟩
        | «continue» s₁ =>
          unfold takeFrame at htake
          dsimp only at htake
          split at htake <;> cases htake
        | waiting s₁ =>
          rw [htake] at h
          cases h
        | aborted =>
          rw [htake] at h
          cases h

/-- A call that stalls fails without having taken anything. -/
theorem Stalls.returns {w : World} {s : StreamTransport β} (h : Stalls w s) (fuel : Nat) (hfuel : s.rounds < fuel) :
    ∃ e s', receiveLoop w fuel s = .returned (.error e) s' ∧ isFatalError (.transport e) = false ∧
      s'.pending = s.pending := by
  induction h generalizing fuel with
  | @noSpace s hneeds hfull =>
    obtain ⟨fuel, rfl⟩ := Nat.exists_eq_add_of_lt hfuel
    refine ⟨.custom .noBufferSpace, s, ?_, rfl, rfl⟩
    unfold receiveLoop
    rw [receiveRound_needsData w hneeds, waitForData, if_pos hfull]
  | @tooLong s length hannounces hpos hlimit =>
    obtain ⟨fuel, rfl⟩ := Nat.exists_eq_add_of_lt hfuel
    refine ⟨.custom .messageTooLong, s, ?_, rfl, rfl⟩
    unfold receiveLoop
    rw [receiveRound_tooLong w hannounces hpos hlimit]
  | @socket s e stream hneeds hroom hreceive hfatal =>
    obtain ⟨fuel, rfl⟩ := Nat.exists_eq_add_of_lt hfuel
    refine ⟨e, { s with recvBuffer := makeRoom s.recvBuffer, stream }, ?_, hfatal, ?_⟩
    · unfold receiveLoop
      rw [receiveRound_needsData w hneeds, waitForData, if_neg hroom]
      dsimp only
      rw [hreceive]
    · simp [StreamTransport.pending, StreamInput.receive_error hreceive]
  | @read s b bs stream hneeds hroom hreceive hrest ih =>
    have hless := rounds_read hreceive (s.tracker.onDownPacket w.now (b :: bs).length)
    obtain ⟨fuel, rfl⟩ := Nat.exists_eq_add_of_lt hfuel
    obtain ⟨e, s', hloop, hfatal, hpending⟩ := ih (s.rounds + fuel) (by omega)
    refine ⟨e, s', ?_, hfatal, hpending.trans (pending_read hreceive _)⟩
    unfold receiveLoop
    rw [receiveRound_needsData w hneeds, waitForData, if_neg hroom]
    dsimp only
    rw [hreceive]
    exact hloop

/-! ## Progress -/

theorem progressOnError_iff (w : World) (s : StreamTransport β) : ProgressOnError w s ↔ ¬ Stalls w s := by
  constructor
  · intro hprogress hstalls
    obtain ⟨e, s', hloop, hfatal, hpending⟩ := hstalls.returns _ (Nat.lt_succ_self _)
    have hless := hprogress e s' hloop hfatal
    rw [hpending] at hless
    omega
  · intro hstalls e s' hcall hfatal
    exact (receiveLoop_takes hcall).2 e rfl hfatal hstalls

/-- None of the calls, one after the other, stalls. -/
def NeverStalls : List World → StreamTransport β → Prop
  | [], _ => True
  | w :: ws, s =>
    ¬ Stalls w s ∧
      match receiveMessage w s with
      | .returned _ s => NeverStalls ws s
      | _ => True

omit [Dbuf] in
/-- An error after which the worker calls again. -/
def isNonFatal : Except TransportError QunetMessage → Bool
  | .error e => !isFatalError (.transport e)
  | .ok _ => false

/-- Every such error takes a byte. -/
theorem errors_le_pending (ws : List World) (s : StreamTransport β) (h : NeverStalls ws s) :
    (receiveCalls ws s).countP isNonFatal ≤ s.pending.length := by
  induction ws generalizing s with
  | nil => exact Nat.zero_le _
  | cons w ws ih =>
    unfold NeverStalls at h
    unfold receiveCalls
    obtain ⟨hstalls, hrest⟩ := h
    cases hcall : receiveMessage w s with
    | returned r s' =>
      rw [hcall] at hrest
      have hcount := ih s' hrest
      obtain ⟨hle, hless⟩ := receiveLoop_takes hcall
      dsimp only
      rw [List.countP_cons]
      split
      · next hr =>
        rcases r with e | m
        · have hfatal : isFatalError (.transport e) = false := by simpa [isNonFatal] using hr
          have := hless e rfl hfatal hstalls
          omega
        · cases hr
      · omega
    | _ => exact Nat.zero_le _

/-- **Progress.** A call that fails, not fatally, has taken something exactly if it does not stall; and as long as no
call stalls, such errors are at most as many as the bytes that arrive. -/
theorem progress_iff (w : World) (s : StreamTransport β) :
    (ProgressOnError w s ↔ ¬ Stalls w s) ∧
      ∀ ws : List World, NeverStalls ws s → (receiveCalls ws s).countP isNonFatal ≤ s.pending.length :=
  ⟨progressOnError_iff w s, fun ws h => errors_le_pending ws s h⟩

end

/-- A full buffer, which begins with the length 2 MiB. -/
def fullRing (n : Nat) : Ring where
  capacity := n + 4
  start := 0
  contents := [0, 0, 0x20, 0] ++ List.replicate n 0
  start_le := Nat.zero_le _
  fits := by simp

def fullTransport (n : Nat) : StreamTransport Ring where
  recvBuffer := fullRing n
  stream := []

theorem fullRing_size (n : Nat) : ByteQueue.size (fullRing n) = n + 4 := by
  show ([0, 0, 0x20, 0] ++ List.replicate n (0 : UInt8)).length = _
  simp

theorem fullRing_full (n : Nat) (h : 1024 * 1024 ≤ n + 4) : NoBufferSpace (fullRing n) := by
  refine ⟨?_, h⟩
  have hsize : (fullRing n).contents.length = n + 4 := fullRing_size n
  have hle : ByteQueue.writeWindow (fullRing n) ≤ n + 4 - (fullRing n).contents.length := (fullRing n).writeWindow_le
  rw [hsize] at hle
  unfold wantedWindow
  omega

theorem fullTransport_needsData (n : Nat) (h : n < 2 ^ 21) : @NeedsData Dbuf.little Ring _ (fullTransport n) := by
  have hsize : ByteQueue.size (fullTransport n).recvBuffer = n + 4 := fullRing_size n
  have hfront : ByteQueue.front 4 (fullRing n) = [0, 0, 0x20, 0] := by
    rw [ByteQueue.front_eq (by rw [fullRing_size]; omega)]
    show ([0, 0, 0x20, 0] ++ List.replicate n (0 : UInt8)).take 4 = _
    simp
  have hannounced : @announcedLength Dbuf.little Ring _ (fullTransport n).recvBuffer = 2 ^ 21 := by
    unfold announcedLength
    rw [show (fullTransport n).recvBuffer = fullRing n from rfl, hfront]
    rfl
  have hannounces : @Announces Dbuf.little Ring _ (fullTransport n) (2 ^ 21) := ⟨by omega, hannounced⟩
  refine Or.inr ⟨2 ^ 21, hannounces, by decide, ?_, by omega⟩
  rintro ⟨-, hlimit⟩
  rw [show (fullTransport n).messageSizeLimit = sizeMax from rfl] at hlimit
  exact absurd hlimit (by decide)

theorem fullTransport_fails (n : Nat) (hlow : 1024 * 1024 ≤ n + 4) (hhigh : n < 2 ^ 21) (w : World) :
    @receiveMessage Dbuf.little Ring _ w (fullTransport n) =
      .returned (.error (.custom .noBufferSpace)) (fullTransport n) := by
  have hfull : NoBufferSpace (fullTransport n).recvBuffer := fullRing_full n hlow
  unfold receiveMessage receiveLoop
  rw [@receiveRound_needsData Dbuf.little Ring _ w _ (fullTransport_needsData n hhigh)]
  unfold waitForData
  rw [if_pos hfull]

/-- The frame does not fit in the buffer, which must not grow: every further call fails in the same way. -/
theorem fullTransport_stuck :
    @receiveMessage Dbuf.little Ring _ UdpTransport.idleWorld (fullTransport (2 ^ 20)) =
        .returned (.error (.custom .noBufferSpace)) (fullTransport (2 ^ 20)) ∧
      isFatalError (.transport (.custom .noBufferSpace)) = false ∧
      ¬ @ProgressOnError Dbuf.little Ring _ UdpTransport.idleWorld (fullTransport (2 ^ 20)) := by
  have hfails := fullTransport_fails (2 ^ 20) (by omega) (by omega) UdpTransport.idleWorld
  exact ⟨hfails, rfl, fun hprogress => absurd (hprogress _ _ hfails rfl) (Nat.lt_irrefl _)⟩

end Qunet
