import Qunet.Lib.Machine
import Qunet.Transport.Error

/-!
# Closing a QUIC connection (`quic/QuicConnection.cpp`)

* `QuicConnection` : the flags that `close` and `closeSync` share, the token and the handle of the worker task;
* `CloseCall`, `closeStep` : the calls of the owner and of the worker, each a sequence of atomic steps;
* `Shut` : the connection is closed, and every `receive` returns `Closed`;
* **`close_shuts_iff`** : it is shut when the first call of `close` has returned, exactly if the close packet is sent
  and no other call is between the two steps of `closeSync`.
-/

namespace Qunet
open Lib

structure QuicConnection where
  closing : Bool := false
  closed : Bool := false
  /-- `m_cancel` has been triggered. -/
  cancelled : Bool := false
  /-- `m_workerTask` has a value. -/
  workerTask : Bool := true
  deriving DecidableEq

namespace QuicConnection

def isClosed (c : QuicConnection) : Bool := c.closed

/-- `ngtcp2_conn_write_connection_close` returns `written`, and `sendPacket` returns `sent`. -/
def sendClosePacket (written : Int) (sent : Except TransportError Unit) : Except TransportError Unit :=
  if written < 0 then .error (.quic written)
  else if written = 0 then .ok ()
  else sent

/-- A round of the loop in `receive`: `none` if it waits for data or for the token. `unread` are the bytes of the
stream, if it exists. -/
def receiveRound (c : QuicConnection) (unread : Option Bytes) (bufSize : Nat) : Option (Except TransportError Bytes) :=
  if c.cancelled then some (.error (.custom .closed))
  else match unread with
    | none => some (.error (.custom .invalidArgument))
    | some [] => none
    | some bytes => some (.ok (bytes.take bufSize))

def receive (c : QuicConnection) (unread : Option Bytes) (bufSize : Nat) : Option (Except TransportError Bytes) :=
  if c.closed then some (.error (.custom .closed))
  else if bufSize = 0 then some (.ok [])
  else c.receiveRound unread bufSize

end QuicConnection

/-! ## The calls -/

/-- Where a call of `close` or `closeSync` is. -/
inductive ClosePhase where
  /-- `close` has set `m_closing`, and awaits `sendClosePacket`. -/
  | sendClosePacket
  /-- `closeSync` is entered. -/
  | closeSync
  /-- `closeSync` has set `m_closed`. -/
  | cancel
  | returned (r : Except TransportError Unit)
  deriving DecidableEq

structure CloseCall where
  /-- The call of `close` that found `m_closing` unset. -/
  first : Bool
  phase : ClosePhase
  deriving DecidableEq

structure CloseRun where
  conn : QuicConnection := {}
  workerRunning : Bool := true
  calls : List CloseCall := []
  deriving DecidableEq

/-- A task calls `close`, up to its first await. -/
def CloseRun.close (s : CloseRun) : CloseRun :=
  if s.conn.closing then { s with calls := s.calls ++ [⟨false, .returned (.ok ())⟩] }
  else { s with conn := { s.conn with closing := true }, calls := s.calls ++ [⟨true, .sendClosePacket⟩] }

/-- The next atomic step of a call. -/
def CloseCall.resume (c : QuicConnection) (call : CloseCall) (written : Int) (sent : Except TransportError Unit) :
    Option (QuicConnection × CloseCall) :=
  match call.phase with
  | .sendClosePacket =>
    match QuicConnection.sendClosePacket written sent with
    | .error e => some (c, { call with phase := .returned (.error e) })
    | .ok () => some (c, { call with phase := .closeSync })
  | .closeSync =>
    if c.closed then some (c, { call with phase := .returned (.ok ()) })
    else some ({ c with closed := true }, { call with phase := .cancel })
  | .cancel => some ({ c with cancelled := true, workerTask := false }, { call with phase := .returned (.ok ()) })
  | .returned _ => none

inductive CloseEvent where
  /-- The owner calls `close`. -/
  | close
  | closeSync
  /-- The worker's loop ends, or its token is triggered; then it calls `close`. -/
  | workerEnds
  /-- A call goes on; the results are those of its close packet, if it awaits one. -/
  | resume (i : Nat) (written : Int) (sent : Except TransportError Unit)

def closeStep (s : CloseRun) : CloseEvent → Option CloseRun
  | .close => some s.close
  | .closeSync => some { s with calls := s.calls ++ [⟨false, .closeSync⟩] }
  | .workerEnds => if s.workerRunning then some { s.close with workerRunning := false } else none
  | .resume i written sent => do
    let call ← s.calls[i]?
    let (conn, call') ← call.resume s.conn written sent
    some { s with conn, calls := s.calls.set i call' }

/-! ## Properties -/

/-- Closed, with every waiting or later `receive` ended. -/
structure Shut (c : QuicConnection) : Prop where
  isClosed : c.isClosed = true
  cancelled : c.cancelled = true
  receive : ∀ unread bufSize, c.receive unread bufSize = some (.error (.custom .closed))
  receiveRound : ∀ unread bufSize, c.receiveRound unread bufSize = some (.error (.custom .closed))

theorem shut_iff (c : QuicConnection) : Shut c ↔ c.closed = true ∧ c.cancelled = true := by
  refine ⟨fun h => ⟨h.isClosed, h.cancelled⟩, fun ⟨hclosed, hcancelled⟩ => ⟨hclosed, hcancelled, ?_, ?_⟩⟩
  · intro unread bufSize
    exact if_pos hclosed
  · intro unread bufSize
    exact if_pos hcancelled

/-- The first call of `close` has returned. -/
def FirstReturned (s : CloseRun) : Prop := ∃ call ∈ s.calls, call.first = true ∧ ∃ r, call.phase = .returned r

/-- The close packet is written and sent, or there is none to send. -/
def PacketSent (written : Int) (sent : Except TransportError Unit) : Prop :=
  0 ≤ written ∧ (written = 0 ∨ sent = .ok ())

/-- The step of the first call does not end it early: its close packet is sent, and where another `closeSync` has set
`m_closed`, that one has also triggered the token. -/
def ClosesSafely (s : CloseRun) : CloseEvent → Prop
  | .resume i written sent => ∀ call, s.calls[i]? = some call → call.first = true →
      (call.phase = .sendClosePacket → PacketSent written sent ∨ s.conn.cancelled = true) ∧
      (call.phase = .closeSync → s.conn.closed = true → s.conn.cancelled = true)
  | _ => True

/-- The token is triggered by the call that has set `m_closed`. -/
structure CloseInv (s : CloseRun) : Prop where
  closed : s.conn.cancelled = true → s.conn.closed = true
  cancel : ∀ call ∈ s.calls, call.phase = .cancel → s.conn.closed = true

/-! ## Steps -/

/-- What a step does to the flags and to the calls. -/
inductive CloseChange (s t : CloseRun) : CloseEvent → Prop where
  /-- A new call, which has at most set `m_closing`. -/
  | enter {e : CloseEvent} (call : CloseCall) (calls : t.calls = s.calls ++ [call])
      (closed : t.conn.closed = s.conn.closed) (cancelled : t.conn.cancelled = s.conn.cancelled)
      (phase : call.phase ≠ .cancel) (first : call.first = true → call.phase = .sendClosePacket)
      (safe : ClosesSafely s e) : CloseChange s t e
  | resume {i : Nat} {written : Int} {sent : Except TransportError Unit} {call call' : CloseCall}
      (found : s.calls[i]? = some call) (step : call.resume s.conn written sent = some (t.conn, call'))
      (calls : t.calls = s.calls.set i call') : CloseChange s t (.resume i written sent)

theorem close_change (s : CloseRun) {e : CloseEvent} (safe : ClosesSafely s e) (running : Bool) :
    CloseChange s { s.close with workerRunning := running } e := by
  unfold CloseRun.close
  split
  · exact .enter _ rfl rfl rfl (fun h => nomatch h) (fun h => nomatch h) safe
  · exact .enter _ rfl rfl rfl (fun h => nomatch h) (fun _ => rfl) safe

theorem closeStep_change {s : CloseRun} {e : CloseEvent} {t : CloseRun} (h : closeStep s e = some t) :
    CloseChange s t e := by
  cases e with
  | close =>
    obtain rfl := Option.some.inj h
    exact close_change s (show ClosesSafely s .close from trivial) _
  | closeSync =>
    obtain rfl := Option.some.inj h
    exact .enter _ rfl rfl rfl (fun h => nomatch h) (fun h => nomatch h) trivial
  | workerEnds =>
    obtain ⟨-, hsome⟩ := Option.ite_none_right_eq_some.mp h
    obtain rfl := Option.some.inj hsome
    exact close_change s (show ClosesSafely s .workerEnds from trivial) false
  | resume i written sent =>
    obtain ⟨call, hfound, hstep⟩ := Option.bind_eq_some_iff.mp h
    obtain ⟨⟨conn, call'⟩, hresume, hsome⟩ := Option.bind_eq_some_iff.mp hstep
    obtain rfl := Option.some.inj hsome
    exact .resume hfound hresume rfl

/-- The steps of a call. -/
inductive CallChange (c c' : QuicConnection) (call call' : CloseCall) (written : Int)
    (sent : Except TransportError Unit) : Prop where
  | packetSent (phase : call.phase = .sendClosePacket) (ok : PacketSent written sent) (conn : c' = c)
      (next : call'.phase = .closeSync)
  | packetFailed (phase : call.phase = .sendClosePacket) (failed : ¬ PacketSent written sent) (conn : c' = c)
      (r : Except TransportError Unit) (next : call'.phase = .returned r)
  | alreadyClosed (phase : call.phase = .closeSync) (closed : c.closed = true) (conn : c' = c)
      (r : Except TransportError Unit) (next : call'.phase = .returned r)
  | closes (phase : call.phase = .closeSync) (opened : c.closed = false) (conn : c' = { c with closed := true })
      (next : call'.phase = .cancel)
  | cancels (phase : call.phase = .cancel) (conn : c' = { c with cancelled := true, workerTask := false })
      (r : Except TransportError Unit) (next : call'.phase = .returned r)

theorem sendClosePacket_ok_iff (written : Int) (sent : Except TransportError Unit) :
    QuicConnection.sendClosePacket written sent = .ok () ↔ PacketSent written sent := by
  unfold QuicConnection.sendClosePacket PacketSent
  split_ifs with hneg hzero
  · exact iff_of_false (fun h => nomatch h) (by omega)
  · exact iff_of_true rfl ⟨by omega, .inl hzero⟩
  · exact ⟨fun h => ⟨by omega, .inr h⟩, fun h => h.2.resolve_left hzero⟩

theorem resume_change {c c' : QuicConnection} {call call' : CloseCall} {written : Int}
    {sent : Except TransportError Unit} (h : call.resume c written sent = some (c', call')) :
    call'.first = call.first ∧ CallChange c c' call call' written sent := by
  have hpacket := sendClosePacket_ok_iff written sent
  unfold CloseCall.resume at h
  split at h
  · next hphase =>
    split at h
    · next e he =>
      cases h
      refine ⟨rfl, .packetFailed hphase (fun hsent => ?_) rfl _ rfl⟩
      rw [hpacket.mpr hsent] at he
      cases he
    · next hok =>
      cases h
      exact ⟨rfl, .packetSent hphase (hpacket.mp hok) rfl rfl⟩
  · next hphase =>
    split at h
    · next hclosed =>
      cases h
      exact ⟨rfl, .alreadyClosed hphase hclosed rfl _ rfl⟩
    · next hopened =>
      cases h
      exact ⟨rfl, .closes hphase (Bool.eq_false_iff.mpr hopened) rfl rfl⟩
  · next hphase =>
    cases h
    exact ⟨rfl, .cancels hphase rfl _ rfl⟩
  · cases h

/-- The flags are never taken back. -/
theorem CallChange.mono {c c' : QuicConnection} {call call' : CloseCall} {written : Int}
    {sent : Except TransportError Unit} (h : CallChange c c' call call' written sent) :
    (c.closed = true → c'.closed = true) ∧ (c.cancelled = true → c'.cancelled = true) := by
  cases h with
  | packetSent _ _ conn _ => rw [conn]; exact ⟨id, id⟩
  | packetFailed _ _ conn _ _ => rw [conn]; exact ⟨id, id⟩
  | alreadyClosed _ _ conn _ _ => rw [conn]; exact ⟨id, id⟩
  | closes _ _ conn _ => rw [conn]; exact ⟨fun _ => rfl, id⟩
  | cancels _ conn _ _ => rw [conn]; exact ⟨id, fun _ => rfl⟩

theorem closeStep_closed {s : CloseRun} {e : CloseEvent} {t : CloseRun} (h : closeStep s e = some t)
    (hclosed : s.conn.closed = true) : t.conn.closed = true := by
  cases closeStep_change h with
  | enter call calls closed cancelled phase first safe => rwa [closed]
  | resume found step calls =>
    obtain ⟨-, hchange⟩ := resume_change step
    exact hchange.mono.1 hclosed

theorem closeStep_inv (s : CloseRun) (e : CloseEvent) (t : CloseRun) (h : closeStep s e = some t)
    (hs : CloseInv s) : CloseInv t := by
  cases closeStep_change h with
  | enter call calls closed cancelled phase first safe =>
    refine ⟨by rw [closed, cancelled]; exact hs.closed, ?_⟩
    rw [calls, closed]
    intro other hmem hcancel
    obtain hold | rfl := (List.mem_append.mp hmem).imp_right List.mem_singleton.mp
    · exact hs.cancel other hold hcancel
    · exact absurd hcancel phase
  | @resume _ _ _ call call' found step calls =>
    obtain ⟨-, hchange⟩ := resume_change step
    have hmono := hchange.mono
    constructor
    · intro hcancelled
      cases hchange with
      | packetSent _ _ conn _ => rw [conn] at hcancelled ⊢; exact hs.closed hcancelled
      | packetFailed _ _ conn _ _ => rw [conn] at hcancelled ⊢; exact hs.closed hcancelled
      | alreadyClosed _ _ conn _ _ => rw [conn] at hcancelled ⊢; exact hs.closed hcancelled
      | closes _ _ conn _ => rw [conn]
      | cancels phase _ _ _ => exact hmono.1 (hs.cancel call (List.mem_of_getElem? found) phase)
    · rw [calls]
      intro other hmem hcancel
      obtain hold | rfl := List.mem_or_eq_of_mem_set hmem
      · exact hmono.1 (hs.cancel other hold hcancel)
      · cases hchange with
        | packetSent _ _ _ next => rw [next] at hcancel; cases hcancel
        | packetFailed _ _ _ _ next => rw [next] at hcancel; cases hcancel
        | alreadyClosed _ _ _ _ next => rw [next] at hcancel; cases hcancel
        | closes _ _ conn _ => rw [conn]
        | cancels _ _ _ next => rw [next] at hcancel; cases hcancel

/-- A step keeps the property exactly if it closes safely. -/
theorem closeStep_shut_iff (s : CloseRun) (e : CloseEvent) (t : CloseRun) (h : closeStep s e = some t)
    (hs : CloseInv s) (hshut : FirstReturned s → Shut s.conn) :
    (FirstReturned t → Shut t.conn) ↔ ClosesSafely s e := by
  rw [shut_iff] at hshut ⊢
  cases closeStep_change h with
  | enter call calls closed cancelled phase first safe =>
    refine iff_of_true ?_ safe
    rintro ⟨other, hmem, hfirst, r, hreturned⟩
    rw [closed, cancelled]
    rw [calls] at hmem
    obtain hold | rfl := (List.mem_append.mp hmem).imp_right List.mem_singleton.mp
    · exact hshut ⟨other, hold, hfirst, r, hreturned⟩
    · rw [first hfirst] at hreturned
      cases hreturned
  | @resume i written sent call call' found step calls =>
    obtain ⟨hfirst', hchange⟩ := resume_change step
    have hmem : call ∈ s.calls := List.mem_of_getElem? found
    have hi : i < s.calls.length := (List.getElem?_eq_some_iff.mp found).1
    constructor
    · intro hkeeps other hother hfirst
      cases found.symm.trans hother
      have hnew {r : Except TransportError Unit} (hr : call'.phase = .returned r) : t.conn.cancelled = true := by
        have hin : call' ∈ t.calls := by
          rw [calls]
          exact List.mem_set hi call'
        exact (hkeeps ⟨call', hin, hfirst'.trans hfirst, r, hr⟩).2
      cases hchange with
      | packetSent phase ok _ _ => exact ⟨fun _ => .inl ok, fun hsync => nomatch phase.symm.trans hsync⟩
      | packetFailed phase _ conn _ next =>
        have hcancelled := hnew next
        rw [conn] at hcancelled
        exact ⟨fun _ => .inr hcancelled, fun _ _ => hcancelled⟩
      | alreadyClosed _ _ conn _ next =>
        have hcancelled := hnew next
        rw [conn] at hcancelled
        exact ⟨fun _ => .inr hcancelled, fun _ _ => hcancelled⟩
      | closes phase opened _ _ =>
        refine ⟨fun hpacket => ?_, fun _ hclosed => ?_⟩
        · cases phase.symm.trans hpacket
        · cases opened.symm.trans hclosed
      | cancels phase _ _ _ =>
        refine ⟨fun hpacket => ?_, fun hsync => nomatch phase.symm.trans hsync⟩
        cases phase.symm.trans hpacket
    · intro hsafe
      rintro ⟨other, hother, hfirst, r, hreturned⟩
      rw [calls] at hother
      obtain hold | rfl := List.mem_or_eq_of_mem_set hother
      · obtain ⟨hclosed, hcancelled⟩ := hshut ⟨other, hold, hfirst, r, hreturned⟩
        exact ⟨hchange.mono.1 hclosed, hchange.mono.2 hcancelled⟩
      · obtain ⟨hpacket, hsync⟩ := hsafe call found (hfirst'.symm.trans hfirst)
        cases hchange with
        | packetSent _ _ _ next => rw [next] at hreturned; cases hreturned
        | packetFailed phase failed conn _ _ =>
          have hcancelled := (hpacket phase).resolve_left failed
          rw [conn]
          exact ⟨hs.closed hcancelled, hcancelled⟩
        | alreadyClosed phase closed conn _ _ =>
          rw [conn]
          exact ⟨closed, hsync phase closed⟩
        | closes _ _ _ next => rw [next] at hreturned; cases hreturned
        | cancels phase conn _ _ =>
          rw [conn]
          exact ⟨hs.cancel call hmem phase, rfl⟩

/-- **Closing.** In a run the connection is shut whenever the first call of `close` has returned, exactly if every step
of that call closes safely. -/
theorem close_shuts_iff (events : List CloseEvent) :
    EveryState closeStep (fun s => FirstReturned s → Shut s.conn) {} events ↔
      EveryStep closeStep ClosesSafely {} events := by
  have hinv : CloseInv {} := by
    refine ⟨fun h => ?_, fun _ h => absurd h List.not_mem_nil⟩
    cases h
  have hshut : FirstReturned {} → Shut ({} : CloseRun).conn := by
    rintro ⟨call, hmem, -⟩
    exact absurd hmem List.not_mem_nil
  exact everyState_iff_everyStep closeStep_inv closeStep_shut_iff hinv hshut events

/-- The loop of the worker has ended, and the socket does not send its close packet: every later call of `close` returns
without an effect. -/
theorem close_stays_open :
    ¬ EveryState closeStep (fun s => FirstReturned s → Shut s.conn) {}
      [.workerEnds, .resume 0 40 (.error (.socket 101)), .close] := by
  intro h
  have hshut := ((h.2 _ rfl).2 _ rfl).2 _ rfl ⟨⟨true, .returned (.error (.socket 101))⟩, by decide, rfl, _, rfl⟩
  exact absurd hshut.isClosed (by decide)

end Qunet
