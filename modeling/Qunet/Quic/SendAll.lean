import Qunet.Quic.Stream
import Qunet.Quic.Closing
import Qunet.Stream.Framing

/-!
# Sending on the main stream (`QuicConnection::sendAll`, `send`)

* `SendAllPhase`, `QuicSender.resume` : `sendAll` from one await to the next;
* `SendStep` : its steps between those of the worker, of ngtcp2, of `close` and `closeSync`, and of the peer that closes
  the stream;
* `QuicSender.AtPhase`, `QuicSender.Sends` : what is known at each place, and the bytes that were accepted;
* `QuicSender.Stuck` : no room in the send buffer, and no worker that could make some;
* **`sendAll_outcome`** : what a call returns, and when it never does.
-/

namespace Qunet
open Lib Relation

/-- `initial_max_stream_data_bidi_local`, the largest window of a stream; no window is ever extended. -/
def streamWindow : Nat := 12 * 1024 * 1024

/-- The size of `outBuf`, in which a packet is written. -/
def maxPacketSize : Nat := 1500

/-- Where the task that calls `sendAll` is. -/
inductive SendAllPhase where
  /-- Outside of `sendAll`; its last call has returned this. -/
  | returned (r : Except TransportError Unit)
  /-- `send` is called with what is left. -/
  | send
  /-- In the loop of `send`. -/
  | getStream
  /-- The stream was found; the task keeps it when `m_streams` loses it. -/
  | pollWritable
  /-- `pollWritable` has returned. -/
  | write
  deriving DecidableEq

instance (s : StreamRun) (data : Bytes) : Decidable (WritesSafely s data) := inferInstanceAs (Decidable (_ ∨ _ ∨ _))

/-- The worker has ended. -/
def StreamRun.Ended (s : StreamRun) : Prop := ∃ taken, s.worker = .ended taken

/-- The sending end of a connection, after the handshake: the calls of `close` with the flags, the main stream, whether
`m_streams` contains it, and what `sendAll` has not written. The others are ghosts: the bodies of the messages so far,
whether a call of `sendAll` has failed, and whether every `write` was one that cannot move the buffer under bytes in
flight. -/
structure QuicSender where
  closing : CloseRun := {}
  run : StreamRun := {}
  inStreams : Bool := true
  phase : SendAllPhase := .returned (.ok ())
  unsent : Bytes := []
  bodies : List Bytes := []
  failed : Bool := false
  safe : Bool := true

namespace QuicSender

def fail (e : TransportError) (s : QuicSender) : QuicSender :=
  { s with phase := .returned (.error e), failed := true }

/-- `write`, and what the loops of `send` and `sendAll` do then. -/
def write [BufferGrowth] (s : QuicSender) : QuicSender :=
  let (written, stream) := s.run.stream.write s.unsent
  let unsent := s.unsent.drop written
  { s with
    run := { s.run with stream, accepted := s.run.accepted ++ s.unsent.take written }
    phase := if written = 0 then .getStream else if unsent = [] then .returned (.ok ()) else .send
    unsent
    safe := s.safe && decide (WritesSafely s.run s.unsent) }

/-- `sendAll` and `send`, from one await to the next. -/
def resume [BufferGrowth] (s : QuicSender) : Option QuicSender :=
  match s.phase with
  | .returned _ => none
  | .send => if s.closing.conn.closed then some (s.fail (.custom .closed)) else some { s with phase := .getStream }
  | .getStream =>
    if s.inStreams then some { s with phase := .pollWritable } else some (s.fail (.custom .invalidArgument))
  | .pollWritable => if s.run.stream.sendCapacity = 0 then none else some { s with phase := .write }
  | .write => some s.write

/-- What the worker, ngtcp2 and `closeStream` can do when so many bytes have arrived. A stream that is not in `m_streams`
is not flushed, and its acknowledgements are ignored; a packet holds at most `maxPacketSize` bytes, the window bounds all
that is handed over, and the other end acknowledges what has arrived. -/
def Allows (s : QuicSender) (arrived : Nat) : StreamEvent → Prop
  | .write _ => False
  | .flush => s.inStreams = true
  | .handOver taken => taken ≤ maxPacketSize ∧ s.run.handed.length + taken ≤ streamWindow
  | .ack ackedBytes => s.inStreams = true ∧ s.run.acked + ackedBytes ≤ arrived
  | _ => True

end QuicSender

/-! ## The invariant -/

/-- What is known where the task is. After a failed call every later one fails: the flags are not taken back. -/
def QuicSender.AtPhase (s : QuicSender) : Prop :=
  match s.phase with
  | .returned (.ok ()) => s.unsent = [] ∧ s.failed = false
  | .returned (.error e) => s.failed = true ∧
      ((e = .custom .closed ∧ s.closing.conn.closed = true) ∨ (e = .custom .invalidArgument ∧ s.inStreams = false))
  | .send => s.unsent ≠ [] ∧ (s.failed = true → s.closing.conn.closed = true ∨ s.inStreams = false)
  | .getStream => s.unsent ≠ [] ∧ (s.failed = true → s.inStreams = false)
  | .pollWritable | .write => s.unsent ≠ [] ∧ s.failed = false

/-- The flags are not taken back. -/
theorem QuicSender.AtPhase.mono {s t : QuicSender} (h : s.AtPhase) (hphase : t.phase = s.phase)
    (hunsent : t.unsent = s.unsent) (hfailed : t.failed = s.failed)
    (hclosed : s.closing.conn.closed = true → t.closing.conn.closed = true)
    (herased : s.inStreams = false → t.inStreams = false) : t.AtPhase := by
  unfold AtPhase at h ⊢
  rw [hphase, hunsent, hfailed]
  split at h
  · exact h
  · exact ⟨h.1, h.2.imp (And.imp_right hclosed) (And.imp_right herased)⟩
  · exact ⟨h.1, fun hf => (h.2 hf).imp hclosed herased⟩
  · exact ⟨h.1, fun hf => herased (h.2 hf)⟩
  · exact h
  · exact h

section
variable [Dbuf]

/-- The bytes that `write` has accepted belong to the messages so far. -/
structure QuicSender.Sends (s : QuicSender) : Prop where
  accounts : Accounts s.run
  atPhase : s.AtPhase
  accepted : s.run.accepted <+: frames s.bodies
  pending : s.failed = false → s.run.accepted ++ s.unsent = frames s.bodies
  missing : s.failed = true → s.run.accepted ≠ frames s.bodies

namespace QuicSender.Sends
variable {s t : QuicSender}

theorem start : Sends {} := ⟨.start, ⟨rfl, rfl⟩, List.prefix_rfl, fun _ => rfl, nofun⟩

/-- A step that leaves the bytes alone. -/
theorem move (h : s.Sends) (hrun : Accounts t.run) (haccepted : t.run.accepted = s.run.accepted)
    (hunsent : t.unsent = s.unsent) (hbodies : t.bodies = s.bodies) (hfailed : t.failed = s.failed)
    (hphase : t.AtPhase) : t.Sends := by
  refine ⟨hrun, hphase, ?_, ?_, ?_⟩
  · rw [haccepted, hbodies]
    exact h.accepted
  · rw [haccepted, hunsent, hbodies, hfailed]
    exact h.pending
  · rw [haccepted, hbodies, hfailed]
    exact h.missing

/-- A call that fails has something left. -/
theorem fail (h : s.Sends) (hunsent : s.unsent ≠ []) {e : TransportError} (hphase : (s.fail e).AtPhase) :
    (s.fail e).Sends := by
  refine ⟨h.accounts, hphase, h.accepted, nofun, fun _ hall => ?_⟩
  cases hfailed : s.failed with
  | true => exact h.missing hfailed hall
  | false =>
    have hpending := (h.pending hfailed).trans hall.symm
    exact hunsent (List.append_right_eq_self.mp hpending)

/-- The frame of a new message comes behind all the others. -/
theorem sendMessage (h : s.Sends) (body : Bytes) {r : Except TransportError Unit} (hreturned : s.phase = .returned r) :
    Sends { s with bodies := s.bodies ++ [body], phase := .send, unsent := frame body } := by
  have hat := h.atPhase
  rw [AtPhase, hreturned] at hat
  have hlonger : frames (s.bodies ++ [body]) = frames s.bodies ++ frame body := frames_concat s.bodies body
  refine ⟨h.accounts, ⟨frame_ne_nil body, fun hfailed => ?_⟩, ?_, fun hfailed => ?_, fun _ hall => ?_⟩
  · cases r with
    | ok => cases hat.2.symm.trans hfailed
    | error e => exact hat.2.imp And.right And.right
  · show s.run.accepted <+: frames (s.bodies ++ [body])
    rw [hlonger]
    exact h.accepted.trans (List.prefix_append _ _)
  · cases r with
    | ok =>
      have hpending := h.pending hfailed
      rw [hat.1, List.append_nil] at hpending
      show s.run.accepted ++ frame body = frames (s.bodies ++ [body])
      rw [hlonger, hpending]
    | error e => cases hat.1.symm.trans hfailed
  · have hlength : s.run.accepted.length = (frames s.bodies ++ frame body).length :=
      congrArg List.length (hall.trans hlonger)
    have hle := h.accepted.length_le
    have hpos := List.length_pos_iff.mpr (frame_ne_nil body)
    rw [List.length_append] at hlength
    omega

end QuicSender.Sends

variable [BufferGrowth]

/-! ## Steps -/

/-- Steps of the sending end, in any order, when so many bytes have arrived at the other one. -/
inductive SendStep (arrived : Nat) (s : QuicSender) : QuicSender → Prop
  /-- `sendMessage` calls `sendAll`, also after a call that has failed. -/
  | sendMessage (body : Bytes) (hlength : body.length < 2 ^ 32) {r : Except TransportError Unit}
      (hreturned : s.phase = .returned r) :
    SendStep arrived s { s with bodies := s.bodies ++ [body], phase := .send, unsent := frame body }
  | resume {t : QuicSender} (hresume : s.resume = some t) : SendStep arrived s t
  | worker (e : StreamEvent) (hallows : s.Allows arrived e) {run : StreamRun} (hstep : streamStep s.run e = some run) :
    SendStep arrived s { s with run }
  | close (e : CloseEvent) (hends : e = .workerEnds → s.run.Ended) {closing : CloseRun}
      (hstep : closeStep s.closing e = some closing) : SendStep arrived s { s with closing }
  /-- `stream_close` erases the stream; ngtcp2 calls it in the worker. -/
  | streamClose (hidle : s.run.worker = .idle) : SendStep arrived s { s with inStreams := false }

/-- However much has arrived. -/
def QuicSender.Step (s t : QuicSender) : Prop := ∃ arrived, SendStep arrived s t

theorem SendStep.any {s t : QuicSender} (h : SendStep 0 s t) : s.Step t := ⟨0, h⟩

namespace QuicSender
variable {s t : QuicSender}

/-- What `resume` does at each place. -/
inductive Resumed (s t : QuicSender) : Prop where
  | closed (phase : s.phase = .send) (closed : s.closing.conn.closed = true) (next : t = s.fail (.custom .closed))
  | opened (phase : s.phase = .send) (opened : s.closing.conn.closed = false) (next : t = { s with phase := .getStream })
  | found (phase : s.phase = .getStream) (found : s.inStreams = true) (next : t = { s with phase := .pollWritable })
  | erased (phase : s.phase = .getStream) (erased : s.inStreams = false)
      (next : t = s.fail (.custom .invalidArgument))
  | writable (phase : s.phase = .pollWritable) (room : s.run.stream.sendCapacity ≠ 0)
      (next : t = { s with phase := .write })
  | written (phase : s.phase = .write) (next : t = s.write)

omit [Dbuf] in
theorem resume_resumed (h : s.resume = some t) : Resumed s t := by
  unfold resume at h
  split at h
  · cases h
  · next hphase =>
    split at h
    · next hclosed => exact .closed hphase hclosed (Option.some.inj h).symm
    · next hopened => exact .opened hphase (Bool.eq_false_iff.mpr hopened) (Option.some.inj h).symm
  · next hphase =>
    split at h
    · next hfound => exact .found hphase hfound (Option.some.inj h).symm
    · next herased => exact .erased hphase (Bool.eq_false_iff.mpr herased) (Option.some.inj h).symm
  · next hphase =>
    split at h
    · cases h
    · next hroom => exact .writable hphase hroom (Option.some.inj h).symm
  · next hphase => exact .written hphase (Option.some.inj h).symm

omit [Dbuf] in
/-- The worker hands bytes over, as far as the window allows, and accepts none. -/
theorem Allows.streamStep {arrived : Nat} {e : StreamEvent} (hallows : s.Allows arrived e) {run : StreamRun}
    (hstep : streamStep s.run e = some run) : run.accepted = s.run.accepted ∧
      s.run.handed.length ≤ run.handed.length ∧ run.handed.length ≤ max s.run.handed.length streamWindow := by
  cases streamStep_change hstep with
  | write data => exact hallows.elim
  | handOver taken flushing offered =>
    have hlength : (s.run.handed ++ s.run.stream.peekUnsentData.take taken).length = s.run.handed.length + taken := by
      rw [List.length_append, List.length_take_of_le offered]
    exact ⟨rfl, hlength ▸ Nat.le_add_right _ _, hlength ▸ le_max_of_le_right hallows.2⟩
  | close | flush | refuse | packetSent | packetFailed | ack | stop => exact ⟨rfl, le_rfl, le_max_left _ _⟩

namespace Sends

theorem write (h : s.Sends) (hphase : s.phase = .write) : s.write.Sends := by
  obtain ⟨hunsent, hfailed⟩ : s.unsent ≠ [] ∧ s.failed = false := by
    have hat := h.atPhase
    rwa [AtPhase, hphase] at hat
  have hpending : s.write.run.accepted ++ s.write.unsent = frames s.bodies := by
    rw [← h.pending hfailed]
    show s.run.accepted ++ s.unsent.take _ ++ s.unsent.drop _ = _
    rw [List.append_assoc, List.take_append_drop]
  refine ⟨h.accounts.write s.unsent, ?_, ⟨_, hpending⟩, fun _ => hpending, fun hfail => ?_⟩
  · unfold QuicSender.write AtPhase
    dsimp only
    by_cases hnone : (s.run.stream.write s.unsent).1 = 0
    · rw [if_pos hnone, hnone]
      exact ⟨hunsent, fun hfail => absurd (hfailed.symm.trans hfail) Bool.false_ne_true⟩
    · rw [if_neg hnone]
      by_cases hdone : s.unsent.drop (s.run.stream.write s.unsent).1 = []
      · rw [if_pos hdone]
        exact ⟨hdone, hfailed⟩
      · rw [if_neg hdone]
        exact ⟨hdone, fun hfail => absurd (hfailed.symm.trans hfail) Bool.false_ne_true⟩
  · cases hfailed.symm.trans hfail

theorem resume (h : s.Sends) (hresume : s.resume = some t) : t.Sends := by
  have hat := h.atPhase
  unfold AtPhase at hat
  cases resume_resumed hresume with
  | closed phase closed next =>
    rw [phase] at hat
    subst next
    exact h.fail hat.1 ⟨rfl, .inl ⟨rfl, closed⟩⟩
  | opened phase opened next =>
    rw [phase] at hat
    subst next
    refine h.move h.accounts rfl rfl rfl rfl ⟨hat.1, fun hfailed => ?_⟩
    exact (hat.2 hfailed).resolve_left (by simp [opened])
  | found phase found next =>
    rw [phase] at hat
    subst next
    refine h.move h.accounts rfl rfl rfl rfl ⟨hat.1, ?_⟩
    by_contra hfailed
    cases found.symm.trans (hat.2 (by simpa using hfailed))
  | erased phase erased next =>
    rw [phase] at hat
    subst next
    exact h.fail hat.1 ⟨rfl, .inr ⟨rfl, erased⟩⟩
  | writable phase room next =>
    rw [phase] at hat
    subst next
    exact h.move h.accounts rfl rfl rfl rfl hat
  | written phase next =>
    subst next
    exact h.write phase

/-- **Step.** Every step keeps the invariant. -/
theorem step (h : s.Sends) {arrived : Nat} (hst : SendStep arrived s t) : t.Sends := by
  cases hst with
  | sendMessage body hlength hreturned => exact h.sendMessage body hreturned
  | resume hresume => exact h.resume hresume
  | worker e hallows hstep =>
    exact h.move (streamStep_accounts _ _ _ hstep h.accounts) (hallows.streamStep hstep).1 rfl rfl rfl
      (h.atPhase.mono rfl rfl rfl id id)
  | close e hends hstep =>
    exact h.move h.accounts rfl rfl rfl rfl (h.atPhase.mono rfl rfl rfl (closeStep_closed hstep) id)
  | streamClose hidle => exact h.move h.accounts rfl rfl rfl rfl (h.atPhase.mono rfl rfl rfl id fun _ => rfl)

end Sends

/-! ## Waiting for room -/

/-- The task waits for room that only an acknowledgement can make, and the worker has ended. -/
structure Stuck (s : QuicSender) : Prop where
  ended : s.run.Ended
  waits : s.phase = .pollWritable
  full : s.run.stream.sendCapacity = 0

/-- Neither `close` nor the end of the stream wakes the task. -/
theorem Stuck.step (h : s.Stuck) (hst : s.Step t) : t.Stuck := by
  obtain ⟨arrived, hst⟩ := hst
  obtain ⟨taken, htaken⟩ := h.ended
  cases hst with
  | sendMessage body hlength hreturned => cases h.waits.symm.trans hreturned
  | resume hresume =>
    rw [QuicSender.resume, h.waits] at hresume
    dsimp only at hresume
    rw [if_pos h.full] at hresume
    cases hresume
  | worker e hallows hstep =>
    cases streamStep_change hstep with
    | write => exact hallows.elim
    | close => exact ⟨h.ended, h.waits, h.full⟩
    | stop => exact ⟨⟨_, rfl⟩, h.waits, h.full⟩
    | flush busy | handOver _ busy | refuse _ busy | packetSent busy | packetFailed busy | ack _ busy =>
      cases htaken.symm.trans busy
  | close => exact ⟨h.ended, h.waits, h.full⟩
  | streamClose hidle => cases htaken.symm.trans hidle

theorem Stuck.forever (h : s.Stuck) (hrun : ReflTransGen Step s t) : t.phase = .pollWritable := by
  refine Stuck.waits (s := t) ?_
  induction hrun with
  | refl => exact h
  | tail _ hst ih => exact ih.step hst

/-- Behind the worker's end the task waits for ever exactly if the send buffer is full. -/
theorem waits_forever_iff (hended : s.run.Ended) (hwaits : s.phase = .pollWritable) :
    (∀ t, ReflTransGen Step s t → t.phase = .pollWritable) ↔ s.run.stream.sendCapacity = 0 := by
  constructor
  · intro hforever
    by_contra hroom
    have hresume : s.resume = some { s with phase := .write } := by
      rw [QuicSender.resume, hwaits]
      exact if_neg hroom
    cases hforever _ (.single ⟨0, .resume hresume⟩)
  · intro hfull t hrun
    exact Stuck.forever ⟨hended, hwaits, hfull⟩ hrun

end QuicSender

/-- **`sendAll`.** In every state that can be reached, the last call has returned `Ok` exactly if every byte of the
messages so far was accepted; an error leaves a proper prefix, and is `Closed` on a connection that is closed, or
`InvalidArgument` where `m_streams` has lost the stream. A call that waits for room when the worker has ended returns in
no run exactly if the send buffer is full. -/
theorem sendAll_outcome {s : QuicSender} (h : Reachable (· = {}) QuicSender.Step s) :
    (∀ r, s.phase = .returned r → (r = .ok () ↔ s.run.accepted = frames s.bodies)) ∧
      (∀ e, s.phase = .returned (.error e) → s.run.accepted <+: frames s.bodies ∧
        ((e = .custom .closed ∧ s.closing.conn.isClosed = true) ∨
          (e = .custom .invalidArgument ∧ s.inStreams = false))) ∧
      (s.run.Ended → s.phase = .pollWritable →
        ((∀ t, ReflTransGen QuicSender.Step s t → t.phase = .pollWritable) ↔ s.run.stream.sendCapacity = 0)) := by
  have hsends : s.Sends := by
    refine Reachable.invariant ?_ ?_ h
    · rintro _ rfl
      exact .start
    · rintro s t hs ⟨arrived, hst⟩
      exact hs.step hst
  have hat := hsends.atPhase
  unfold QuicSender.AtPhase at hat
  refine ⟨fun r hreturned => ?_, fun e hreturned => ?_, QuicSender.waits_forever_iff⟩
  · rw [hreturned] at hat
    cases r with
    | ok =>
      have hpending := hsends.pending hat.2
      rw [hat.1, List.append_nil] at hpending
      exact iff_of_true rfl hpending
    | error e => exact iff_of_false nofun (hsends.missing hat.1)
  · rw [hreturned] at hat
    exact ⟨hsends.accepted, hat.2⟩

end

/-- Behind a `write` that was cut off there is no room. -/
theorem QuicStream.sendCapacity_write [BufferGrowth] {s : QuicStream} {data : Bytes} (hunacked : s.unackedBytes = 0)
    (h : s.sendCapacity ≤ data.length) : (s.write data).2.sendCapacity = 0 := by
  obtain ⟨-, hkept, -⟩ := write_counters data s
  have hwritten : (s.write data).1 = s.sendCapacity := by
    unfold write
    dsimp only
    split
    · next hfull => exact hfull.symm
    · exact Nat.min_eq_right h
  have hsize : (s.write data).2.sendBuffer.size = s.sendBuffer.size + s.sendCapacity := by
    rw [CircularByteBuffer.size, write_contents, List.length_append, hwritten, List.length_take_of_le h,
      CircularByteBuffer.size]
  have hroom : s.sendCapacity = (((maxBufferSize : Int) - s.sendBuffer.size) % 2 ^ 64).toNat := by
    rw [sendCapacity, hunacked]
    rfl
  unfold sendCapacity
  rw [hkept, hunacked, hsize, if_neg (Nat.lt_irrefl 0)]
  dsimp only
  omega

/-- `send` is called again for what was cut off. -/
theorem QuicSender.write_cut [BufferGrowth] {s : QuicSender} (hsome : (s.run.stream.write s.unsent).1 ≠ 0)
    (hmore : s.unsent.drop (s.run.stream.write s.unsent).1 ≠ []) : s.write.phase = .send :=
  (if_neg hsome).trans (if_neg hmore)

/-- The worker ends before a message of 16 MiB, whose length takes four bytes more than there is room for. -/
theorem sendAll_outcome_stopped :
    letI := BufferGrowth.exact
    letI := Dbuf.little
    ∃ s : QuicSender, Reachable (· = {}) QuicSender.Step s ∧
      ∀ t, ReflTransGen QuicSender.Step s t → t.phase = .pollWritable := by
  let : BufferGrowth := .exact
  let : Dbuf := .little
  let body : Bytes := List.replicate maxBufferSize 0
  have hbody : body.length = maxBufferSize := List.length_replicate
  have hframe : (frame body).length = 4 + maxBufferSize := by
    rw [frame, List.length_append, Dbuf.u32.write_length, hbody]
  have hcapacity : QuicStream.sendCapacity {} = maxBufferSize := rfl
  have hwritten : (QuicStream.write (frame body) {}).1 = maxBufferSize := by
    rw [QuicStream.write, hcapacity, if_neg (by decide)]
    exact Nat.min_eq_right (by omega)
  have hfull : (QuicStream.write (frame body) {}).2.sendCapacity = 0 :=
    QuicStream.sendCapacity_write rfl (by omega)
  let stopped : QuicSender :=
    { bodies := [body], phase := .write, unsent := frame body, run := { worker := .ended 0 } }
  have hstart : Reachable (· = {}) QuicSender.Step ({} : QuicSender) := .start rfl
  have hended := (hstart.next (SendStep.any (.sendMessage body (by rw [hbody]; decide) rfl))).next
    (SendStep.any (.worker .stop trivial rfl))
  have hstopped : Reachable (· = {}) QuicSender.Step stopped :=
    ((hended.next (SendStep.any (.resume rfl))).next (SendStep.any (.resume rfl))).next
      (SendStep.any (.resume rfl))
  have hrest : stopped.write.phase = .send := by
    have hmore : (frame body).drop (QuicStream.write (frame body) {}).1 ≠ [] := by
      refine List.ne_nil_of_length_pos ?_
      rw [List.length_drop, hwritten, hframe]
      omega
    have hsome : (QuicStream.write (frame body) {}).1 ≠ 0 := by
      rw [hwritten]
      decide
    exact QuicSender.write_cut hsome hmore
  have hsend : QuicSender.resume stopped.write = some { stopped.write with phase := .getStream } := by
    rw [QuicSender.resume, hrest]
    rfl
  have hwaiting := ((hstopped.next (SendStep.any (.resume rfl))).next (SendStep.any (.resume hsend))).next
    (SendStep.any (.resume rfl))
  exact ⟨_, hwaiting, ((sendAll_outcome hwaiting).2.2 ⟨0, rfl⟩ rfl).mpr hfull⟩

end Qunet
