import Qunet.Transport.Error
import Qunet.Lib.Machine

/-!
# Keepalives (`BaseTransport.cpp`, `TcpTransport.cpp`, `WsTransport.cpp`)

* `KeepaliveState` : what a transport knows about its own activity and about the answers of the server;
* `KeepaliveSchedule`, `untilKeepalive` : how long to wait for the next keepalive;
* `StreamCall`, `streamCall` : what a TCP or WebSocket transport does with its state on each call;
* **`timedOut_iff`** : the timer gives up exactly when six keepalives have gone unanswered;
* **`silent_server_detected`** : a server that falls silent is noticed by a fixed instant.
-/

namespace Qunet
open Lib

/-- `Duration::fromSecs`, in nanoseconds. -/
def fromSecs (s : Nat) : Nat := s * 1000000000

/-- Instants are numbers of nanoseconds. The averages of latency and jitter are floating-point computations; nothing
here reads them. -/
structure KeepaliveState where
  latestRttMicros : Nat := 0
  lastActivity : Option Nat := none
  lastKeepalive : Option Nat := none
  totalKeepalives : Nat := 0
  totalRttEstimates : Nat := 0
  unackedKeepalives : Nat := 0
  activeKeepaliveInterval : Option Nat := none
  deriving DecidableEq

/-- A duration minus the time since an instant; durations saturate at zero, and before the first event the time since
it is infinite. -/
def remaining (now dur : Nat) : Option Nat → Nat
  | none => 0
  | some since => dur - (now - since)

namespace KeepaliveState

def updateLastActivity (now : Nat) (k : KeepaliveState) : KeepaliveState := { k with lastActivity := some now }

def updateLastSentKeepalive (now : Nat) (k : KeepaliveState) : KeepaliveState :=
  { k with lastKeepalive := some now, totalKeepalives := k.totalKeepalives + 1
           unackedKeepalives := k.unackedKeepalives + 1 }

/-- `rtt` is a number of nanoseconds. -/
def updateLatency (rtt : Nat) (k : KeepaliveState) : KeepaliveState :=
  { k with latestRttMicros := rtt / 1000, totalRttEstimates := k.totalRttEstimates + 1 }

/-- `now` is the clock of the keepalive timestamps. -/
def onIncomingMessage (now : Nat) (msg : QunetMessage) (k : KeepaliveState) : KeepaliveState :=
  match msg with
  | .keepaliveResponse m =>
    let k := if now > m.timestamp.toNat then k.updateLatency (now - m.timestamp.toNat) else k
    { k with unackedKeepalives := 0 }
  | _ => k

/-- `BaseTransport::handleTimerExpiry`. -/
def handleTimerExpiry (k : KeepaliveState) : Except TransportError Unit :=
  if k.unackedKeepalives > 5 then .error (.custom .timedOut) else .ok ()

end KeepaliveState

/-! ## The schedule -/

/-- How long to wait: while a keepalive is unanswered, after the first latency estimates, and later on. -/
structure KeepaliveSchedule where
  unacked : Nat
  early : List Nat
  idle : Nat

/-- `untilKeepalive`. -/
def KeepaliveSchedule.untilKeepalive (sch : KeepaliveSchedule) (now : Nat) (k : KeepaliveState) : Nat :=
  if k.unackedKeepalives > 0 then remaining now sch.unacked k.lastActivity
  else
    match sch.early[k.totalRttEstimates]?, k.activeKeepaliveInterval with
    | some dur, some active => remaining now (min dur active) k.lastKeepalive
    | some dur, none => remaining now dur k.lastKeepalive
    | none, some active => min (remaining now sch.idle k.lastActivity) (remaining now active k.lastKeepalive)
    | none, none => remaining now sch.idle k.lastActivity

/-- The durations of `UdpTransport::untilKeepalive`. -/
def udpSchedule : KeepaliveSchedule :=
  ⟨fromSecs 2, [fromSecs 3, fromSecs 3, fromSecs 8, fromSecs 12, fromSecs 20], fromSecs 30⟩

/-- The durations of `TcpTransport::untilKeepalive`. -/
def tcpSchedule : KeepaliveSchedule := ⟨fromSecs 3, [fromSecs 3, fromSecs 3, fromSecs 10, fromSecs 25], fromSecs 45⟩

/-- The durations of `WsTransport::untilKeepalive`. -/
def wsSchedule : KeepaliveSchedule := ⟨fromSecs 3, [fromSecs 3, fromSecs 3, fromSecs 10, fromSecs 25], fromSecs 45⟩

/-- No wait is longer than `w`. -/
structure KeepaliveSchedule.Within (sch : KeepaliveSchedule) (w : Nat) : Prop where
  unacked : sch.unacked ≤ w
  early : ∀ dur ∈ sch.early, dur ≤ w
  idle : sch.idle ≤ w

theorem remaining_le (now dur : Nat) (since : Option Nat) : remaining now dur since ≤ dur := by
  cases since with
  | none => exact Nat.zero_le _
  | some since => exact Nat.sub_le _ _

namespace KeepaliveSchedule
variable {sch : KeepaliveSchedule} {w : Nat}

theorem untilKeepalive_le (h : sch.Within w) (now : Nat) (k : KeepaliveState) : sch.untilKeepalive now k ≤ w := by
  unfold untilKeepalive
  split
  · exact (remaining_le _ _ _).trans h.unacked
  · split
    next dur active hdur _ =>
      exact (remaining_le _ _ _).trans ((Nat.min_le_left _ _).trans (h.early dur (List.mem_of_getElem? hdur)))
    next dur hdur _ => exact (remaining_le _ _ _).trans (h.early dur (List.mem_of_getElem? hdur))
    next => exact (Nat.min_le_left _ _).trans ((remaining_le _ _ _).trans h.idle)
    next => exact (remaining_le _ _ _).trans h.idle

theorem untilKeepalive_unacked {now : Nat} {k : KeepaliveState} (h : 0 < k.unackedKeepalives) :
    sch.untilKeepalive now k = remaining now sch.unacked k.lastActivity := by
  unfold untilKeepalive
  rw [if_pos h]

end KeepaliveSchedule

/-! ## Calls -/

/-- A call on a TCP or WebSocket transport, with what the socket answers. -/
inductive StreamCall where
  | send (msg : QunetMessage) (r : Except TransportError Unit)
  | received (stamp : Nat) (msg : QunetMessage)
  | timer (r : Except TransportError Unit)

/-- `TcpTransport::sendMessage` and `WsTransport::sendMessage`, before they write anything. -/
def KeepaliveState.onSend (now : Nat) (msg : QunetMessage) (k : KeepaliveState) : KeepaliveState :=
  match msg with
  | .keepalive _ => (k.updateLastActivity now).updateLastSentKeepalive now
  | _ => k.updateLastActivity now

/-- `TcpTransport::handleTimerExpiry` and `WsTransport::handleTimerExpiry`; `r` is the result of the send. -/
def KeepaliveState.streamTimer (now : Nat) (r : Except TransportError Unit) (k : KeepaliveState) :
    Except TransportError Unit × KeepaliveState :=
  match k.handleTimerExpiry with
  | .error e => (.error e, k)
  | .ok () => (r, k.onSend now (.keepalive ⟨0⟩))

def streamCall (k : KeepaliveState) (c : Nat × StreamCall) : Except TransportError Unit × KeepaliveState :=
  match c.2 with
  | .send msg r => (r, k.onSend c.1 msg)
  | .received stamp msg => (.ok (), k.onIncomingMessage stamp msg)
  | .timer r => k.streamTimer c.1 r

/-! ## Unanswered keepalives -/

/-- What a call shows on the wire, as far as keepalives are concerned: a keepalive (`true`) or an answer (`false`). A
keepalive that the socket refused counts as shown, as `sendMessage` counts it before it writes. -/
def wireEvents (k : KeepaliveState) (c : Nat × StreamCall) : List Bool :=
  match c.2 with
  | .send (.keepalive _) _ => [true]
  | .received _ (.keepaliveResponse _) => [false]
  | .timer _ => if k.unackedKeepalives > 5 then [] else [true]
  | _ => []

/-- What a sequence of calls shows on the wire. -/
def wireOf : KeepaliveState → List (Nat × StreamCall) → List Bool
  | _, [] => []
  | k, c :: cs => wireEvents k c ++ wireOf (streamCall k c).2 cs

/-- The number of keepalives since the last answer. -/
def unanswered (wire : List Bool) : Nat := (wire.reverse.takeWhile id).length

theorem unanswered_sent (wire : List Bool) : unanswered (wire ++ [true]) = unanswered wire + 1 := by
  unfold unanswered
  rw [List.reverse_append, List.reverse_singleton, List.singleton_append, List.takeWhile_cons_of_pos rfl,
    List.length_cons]

theorem unanswered_answered (wire : List Bool) : unanswered (wire ++ [false]) = 0 := by
  unfold unanswered
  rw [List.reverse_append, List.reverse_singleton, List.singleton_append, List.takeWhile_cons_of_neg (by simp)]
  rfl

/-- A call counts what it shows. -/
theorem streamCall_counts {k : KeepaliveState} {wire : List Bool} (h : k.unackedKeepalives = unanswered wire)
    (c : Nat × StreamCall) : (streamCall k c).2.unackedKeepalives = unanswered (wire ++ wireEvents k c) := by
  obtain ⟨now, call⟩ := c
  cases call with
  | send msg r =>
    cases msg with
    | keepalive m => exact (congrArg (· + 1) h).trans (unanswered_sent wire).symm
    | _ =>
      unfold wireEvents
      rw [List.append_nil]
      exact h
  | received stamp msg =>
    cases msg with
    | keepaliveResponse m => exact (unanswered_answered wire).symm
    | _ =>
      unfold wireEvents
      rw [List.append_nil]
      exact h
  | timer r =>
    show (k.streamTimer now r).2.unackedKeepalives = unanswered (wire ++ if k.unackedKeepalives > 5 then [] else [true])
    unfold KeepaliveState.streamTimer KeepaliveState.handleTimerExpiry
    by_cases hmany : k.unackedKeepalives > 5
    · rw [if_pos hmany, if_pos hmany, List.append_nil]
      exact h
    · rw [if_neg hmany, if_neg hmany, unanswered_sent, ← h]
      rfl

theorem calls_count (cs : List (Nat × StreamCall)) {k : KeepaliveState} {wire : List Bool}
    (h : k.unackedKeepalives = unanswered wire) :
    (runMachine streamCall k cs).2.unackedKeepalives = unanswered (wire ++ wireOf k cs) := by
  induction cs generalizing k wire with
  | nil =>
    unfold wireOf
    rw [List.append_nil]
    exact h
  | cons c cs ih =>
    rw [runMachine_cons]
    unfold wireOf
    rw [← List.append_assoc]
    exact ih (streamCall_counts h c)

/-- **The timer gives up exactly** when at least six keepalives have gone out since the last answer, whatever was sent,
received and timed before. -/
theorem timedOut_iff (active : Option Nat) (cs : List (Nat × StreamCall)) :
    (runMachine streamCall { activeKeepaliveInterval := active } cs).2.handleTimerExpiry = .error (.custom .timedOut) ↔
      6 ≤ unanswered (wireOf { activeKeepaliveInterval := active } cs) := by
  have hfresh : ({ activeKeepaliveInterval := active } : KeepaliveState).unackedKeepalives = unanswered [] := rfl
  have hcount := calls_count cs hfresh
  rw [List.nil_append] at hcount
  unfold KeepaliveState.handleTimerExpiry
  rw [hcount]
  split
  · exact iff_of_true rfl (by omega)
  · exact iff_of_false (by simp) (by omega)

/-! ## A server that falls silent -/

/-- The worker sleeps from `s` until the timer expires, and handles it at most `late` afterwards, again and again;
nothing else happens. The results are those of the sends. -/
def Sleeps (sch : KeepaliveSchedule) (late : Nat) :
    Nat → KeepaliveState → List (Nat × Except TransportError Unit) → Prop
  | _, _, [] => True
  | s, k, (t, r) :: ts =>
    t ≤ s + sch.untilKeepalive s k + late ∧ Sleeps sch late t (k.streamTimer t r).2 ts

/-- The timer calls of such a run. -/
def timerCalls (ts : List (Nat × Except TransportError Unit)) : List (Nat × StreamCall) :=
  ts.map fun t => (t.1, .timer t.2)

theorem streamTimer_unacked (now : Nat) (r : Except TransportError Unit) (k : KeepaliveState) :
    k.unackedKeepalives ≤ 5 ∧ (k.streamTimer now r).1 = r ∧
        (k.streamTimer now r).2.unackedKeepalives = k.unackedKeepalives + 1 ∧
        (k.streamTimer now r).2.lastActivity = some now ∨
      5 < k.unackedKeepalives ∧ (k.streamTimer now r) = (.error (.custom .timedOut), k) := by
  unfold KeepaliveState.streamTimer KeepaliveState.handleTimerExpiry
  by_cases hmany : k.unackedKeepalives > 5
  · rw [if_pos hmany]
    exact .inr ⟨hmany, rfl⟩
  · rw [if_neg hmany]
    exact .inl ⟨by omega, rfl, rfl, rfl⟩

/-- The first call comes after a wait of at most `wait`, and the others follow at intervals of `unacked`. -/
theorem Sleeps.calls {sch : KeepaliveSchedule} {late s wait : Nat} {k : KeepaliveState}
    {ts : List (Nat × Except TransportError Unit)} (h : Sleeps sch late s k ts)
    (hwait : sch.untilKeepalive s k ≤ wait) {i t : Nat} {r : Except TransportError Unit} (hi : ts[i]? = some (t, r)) :
    t ≤ s + wait + late + i * (sch.unacked + late) ∧
      (5 < k.unackedKeepalives + i → (runMachine streamCall k (timerCalls ts)).1[i]? = some (.error (.custom .timedOut))) ∧
      (k.unackedKeepalives + i ≤ 5 → (runMachine streamCall k (timerCalls ts)).1[i]? = some r) := by
  induction ts generalizing s wait k i with
  | nil => cases hi
  | cons first ts ih =>
    obtain ⟨t₀, r₀⟩ := first
    obtain ⟨ht₀, hrest⟩ := h
    have hrun : (runMachine streamCall k (timerCalls ((t₀, r₀) :: ts))).1 =
        (k.streamTimer t₀ r₀).1 :: (runMachine streamCall (k.streamTimer t₀ r₀).2 (timerCalls ts)).1 := rfl
    rw [hrun]
    have hcases := streamTimer_unacked t₀ r₀ k
    cases i with
    | zero =>
      cases hi
      refine ⟨by omega, fun hmany => ?_, fun hfew => ?_⟩
      · rcases hcases with ⟨hle, -⟩ | ⟨-, heq⟩
        · omega
        · rw [heq]
          rfl
      · rcases hcases with ⟨-, hr, -⟩ | ⟨hlt, -⟩
        · rw [List.getElem?_cons_zero, hr]
        · omega
    | succ i =>
      rw [List.getElem?_cons_succ] at hi ⊢
      have hpos : 0 < (k.streamTimer t₀ r₀).2.unackedKeepalives := by
        rcases hcases with ⟨-, -, hn, -⟩ | ⟨hlt, heq⟩
        · omega
        · rw [heq]
          exact Nat.zero_lt_of_lt hlt
      have hnext : sch.untilKeepalive t₀ (k.streamTimer t₀ r₀).2 ≤ sch.unacked := by
        rw [KeepaliveSchedule.untilKeepalive_unacked hpos]
        exact remaining_le _ _ _
      obtain ⟨htime, hmany, hfew⟩ := ih hrest hnext hi
      have hmul : (i + 1) * (sch.unacked + late) = i * (sch.unacked + late) + (sch.unacked + late) := Nat.succ_mul _ _
      refine ⟨by omega, fun h5 => hmany ?_, fun h5 => hfew ?_⟩
      · rcases hcases with ⟨-, -, hn, -⟩ | ⟨hlt, heq⟩
        · omega
        · rw [heq]
          exact Nat.lt_of_lt_of_le hlt (Nat.le_add_right _ _)
      · rcases hcases with ⟨-, -, hn, -⟩ | ⟨hlt, -⟩
        · omega
        · omega

theorem streamSchedule_within {sch : KeepaliveSchedule} (h : sch = tcpSchedule ∨ sch = wsSchedule) :
    sch.Within (fromSecs 45) ∧ sch.unacked = fromSecs 3 := by
  rcases h with rfl | rfl <;> exact ⟨⟨by decide, by decide, by decide⟩, rfl⟩

/-- **A silent server is detected** by TCP and WebSocket transports: when no message arrives and nothing else is sent,
the timer gives up at the call at which six keepalives are unanswered, not before, and at most 63 seconds after the
last event, plus what the worker was late. -/
theorem silent_server_detected (sch : KeepaliveSchedule) (hsch : sch = tcpSchedule ∨ sch = wsSchedule) (late s : Nat)
    (k : KeepaliveState) (ts : List (Nat × Except TransportError Unit)) (h : Sleeps sch late s k ts)
    (hlen : ts.length = 7) :
    ∃ (i t : Nat) (r : Except TransportError Unit), i = 6 - k.unackedKeepalives ∧ ts[i]? = some (t, r) ∧
      (runMachine streamCall k (timerCalls ts)).1[i]? = some (.error (.custom .timedOut)) ∧
      (∀ j < i, (runMachine streamCall k (timerCalls ts)).1[j]? = ts[j]?.map Prod.snd) ∧
      t ≤ s + fromSecs 63 + 7 * late := by
  obtain ⟨hw, hunacked⟩ := streamSchedule_within hsch
  have hcall : ∀ i < ts.length, ∃ t r, ts[i]? = some (t, r) := fun i hi =>
    ⟨ts[i].1, ts[i].2, List.getElem?_eq_getElem hi⟩
  obtain ⟨t, r, hi⟩ := hcall (6 - k.unackedKeepalives) (by omega)
  have hwait := KeepaliveSchedule.untilKeepalive_le hw s k
  obtain ⟨htime, hmany, -⟩ := h.calls hwait hi
  refine ⟨6 - k.unackedKeepalives, t, r, rfl, hi, hmany (by omega), fun j hj => ?_, ?_⟩
  · obtain ⟨t', r', hj'⟩ := hcall j (by omega)
    obtain ⟨-, -, hfew⟩ := h.calls hwait hj'
    rw [hfew (by omega), hj']
    rfl
  · have hmul : (6 - k.unackedKeepalives) * (sch.unacked + late) ≤ 6 * (sch.unacked + late) :=
      Nat.mul_le_mul_right _ (Nat.sub_le _ _)
    rw [hunacked] at hmul htime
    unfold fromSecs at *
    omega

/-- Six unanswered keepalives after a fresh start, three seconds apart. -/
def silentCalls : List (Nat × Except TransportError Unit) := (List.range 7).map fun i => (fromSecs (3 * i), .ok ())

theorem silent_server_detected_fresh : ∃ (i t : Nat) (r : Except TransportError Unit), i = 6 - 0 ∧
    silentCalls[i]? = some (t, r) ∧
    (runMachine streamCall {} (timerCalls silentCalls)).1[i]? = some (.error (.custom .timedOut)) ∧
    (∀ j < i, (runMachine streamCall {} (timerCalls silentCalls)).1[j]? = silentCalls[j]?.map Prod.snd) ∧
    t ≤ 0 + fromSecs 63 + 7 * 0 :=
  silent_server_detected tcpSchedule (.inl rfl) 0 0 {} silentCalls
    ⟨by decide, by decide, by decide, by decide, by decide, by decide, by decide, trivial⟩ rfl

end Qunet
