import Qunet.Connection.Rules

/-!
# The state, the socket and the stored address

Whenever a pass of the worker begins, the state is one of four, and the socket and the address that it needs are there.

* `PassInv` : what holds when a pass begins;
* `stateContract` : what the worker relies on; only an attempt to connect may abort it;
* `stateConnect`, `stateAttempt` : attempts to connect and to reconnect;
* `onFatalError_view`, `connectedPass_view`, … : one rule for each function;
* **`state_invariant`** : every run without simulated drops.
-/

namespace Qunet
open Lib

/-- There are a socket and an address to reconnect to. -/
structure View.Engaged (v : View) : Prop where
  socket : v.socket.isSome
  address : v.data.address.isSome
  connType : v.data.connType ≠ .unknown

/-- What holds when a pass begins. -/
structure PassInv (v : View) : Prop where
  state : v.connState = .disconnected ∨ v.connState = .connected ∨ v.connState = .reconnecting ∨ v.connState = .closing
  engaged : v.connState = .connected ∨ v.connState = .reconnecting → v.Engaged
  closing : v.connState = .closing → v.socket.isSome
  disconnected : v.connState = .disconnected → v.socket = none

namespace PassInv
variable {v : View}

theorem of_disconnected (hstate : v.connState = .disconnected) (hsocket : v.socket = none) : PassInv v := by
  constructor <;> simp [hstate, hsocket]

theorem of_closing (hstate : v.connState = .closing) (hsocket : v.socket.isSome) : PassInv v := by
  constructor <;> simp [hstate, hsocket]

theorem of_engaged (hstate : v.connState = .connected ∨ v.connState = .reconnecting) (h : v.Engaged) : PassInv v := by
  rcases hstate with hstate | hstate <;> constructor <;> simp [hstate, h]

end PassInv

/-- The others leave the view alone, and only an attempt to connect may abort. -/
def stateContract : Contract Connection Answer Abort where
  rely _ c c' := c'.view = c.view
  admits _ _ _ := True
  inv _ _ := True
  aborts why _ := why.connecting

abbrev ViewTriple {α : Type} (p : View → Prop) (t : Worker α) (q : α → View → Prop) : Prop :=
  Triple stateContract (fun c => p c.view) t fun a c => q a c.view

theorem stateContract_holds (suspends : Bool) (p : View → Prop) : stateContract.Holds suspends fun c => p c.view :=
  ⟨fun _ _ => trivial, fun _ _ hp (hview : _ = _) => hview ▸ hp⟩

section
variable {p q : View → Prop}

theorem act_view {f : Connection → Connection} (h : ∀ c, p c.view → q (f c).view) : ViewTriple p (.act f) fun _ => q :=
  .act (stateContract_holds _ p) h

theorem ask_view {α : Type} {f : Answer → Option α} : ViewTriple p (.ask f) fun _ => p :=
  .ask (stateContract_holds _ p) fun _ _ _ hc _ => hc

/-! ## The state -/

def View.resetAttempts (v : View) : View :=
  { v with data := { v.data with reconnectAttempt := 0, tryStatelessReconnect := false } }

theorem View.Engaged.resetAttempts {v : View} (h : v.Engaged) : v.resetAttempts.Engaged :=
  ⟨h.socket, h.address, h.connType⟩

theorem PassInv.resetAttempts {v : View} (h : PassInv v) : PassInv v.resetAttempts :=
  ⟨h.state, fun hs => (h.engaged hs).resetAttempts, h.closing, h.disconnected⟩

theorem setState_view {state : ConnectionState} (h : ∀ v, p v → PassInv { v with connState := state }) :
    ViewTriple p (setState state) fun _ => PassInv :=
  setState_triple (stateContract_holds _ p) (stateContract_holds _ PassInv) (stateContract_holds _ PassInv)
    (fun _ hc _ => h _ hc) (fun _ hc _ => h _ hc) (fun _ hc _ => hc) (fun _ hc _ => hc)
    fun _ (hc : PassInv _) _ => hc.resetAttempts

theorem threadCancelConnection_view : ViewTriple p threadCancelConnection fun _ => PassInv := by
  have hreset : ViewTriple p resetConnectionState fun _ v => v.socket = none :=
    resetConnectionState_triple (P := fun _ => True) (stateContract_holds _ fun _ => True) (fun _ _ => trivial)
      (fun _ _ => trivial) (fun _ _ => rfl) |>.pre fun _ _ => trivial
  refine hreset.bind fun _ => ?_
  exact setState_view (p := fun v => v.socket = none) fun _ hv => .of_disconnected rfl hv

/-- In which views an error can be handled: a connected worker has what it needs to reconnect. -/
def View.Handles (v : View) : Prop := v.connState = .connected → v.Engaged

theorem onFatalError_view (e : ConnectionError) : ViewTriple View.Handles (onFatalError e) fun _ => PassInv := by
  refine Triple.bind (act_view (q := View.Handles) fun _ hc => hc) fun _ => ?_
  have hread : ViewTriple View.Handles (.read (·.connState)) fun state v => state = .connected → v.Engaged :=
    .read (stateContract_holds _ View.Handles) fun _ hc => hc
  refine hread.bind fun state => ?_
  refine Triple.bind (ask_view (p := fun v => state = .connected → v.Engaged)) fun shouldReconnect => ?_
  split
  · next hstate =>
    have hdrain : ViewTriple (fun v => state = .connected → v.Engaged) drainMessages fun _ => View.Engaged :=
      act_view fun _ hc => hc hstate.1
    refine hdrain.bind fun _ => ?_
    exact setState_view (p := View.Engaged) fun _ hv => .of_engaged (Or.inr rfl) ⟨hv.socket, hv.address, hv.connType⟩
  · exact threadCancelConnection_view (p := fun v => state = .connected → v.Engaged)

end

/-! ## Connecting -/

theorem stateConnect : ConnectRule stateContract (fun c => c.view.connState ≠ .connected)
    (fun c => c.view.connState ≠ .connected ∧ c.view.socket.isSome)
    fun c => c.view.connState ≠ .connected ∧ c.view.Engaged where
  runs := stateContract_holds false fun v => v.connState ≠ .connected
  waits := stateContract_holds true fun v => v.connState ≠ .connected
  aborts _ _ _ hwhy := hwhy
  prepare c c' hc hstep := by
    cases hstep with
    | exchange state h =>
      intro (heq : state = .connected)
      subst heq
      cases h
    | _ => exact hc
  resetData _ hc := hc
  resetRequest _ hc := hc
  resetSocket _ hc := hc
  install _ _ hc := ⟨hc, rfl⟩
  installed := stateContract_holds false fun v => v.connState ≠ .connected ∧ v.socket.isSome
  store _ _ _ hc htype := ⟨hc.1, hc.2, rfl, htype⟩

/-- During an attempt, the connection is not connected; one that succeeds leaves a socket and an address. -/
theorem threadConnect_view [Host] (url : Text) :
    ViewTriple (fun v => v.connState ≠ .connected) (threadConnect url)
      fun r v => v.connState ≠ .connected ∧ (r = .ok () → v.Engaged) := by
  refine (stateConnect.threadConnect url).post fun r c hc => ?_
  cases r with
  | error e => exact ⟨hc.2 e rfl, fun h => (by cases h)⟩
  | ok =>
    obtain ⟨hstate, hengaged⟩ := hc.1 _ rfl
    exact ⟨hstate, fun _ => hengaged⟩

/-! ## Reconnecting -/

/-- The view of a worker that reconnects. -/
def View.Reconnects (v : View) : Prop := v.connState = .reconnecting ∧ v.Engaged

theorem stateAttempt : AttemptRule stateContract (fun c => c.view.Reconnects) (fun _ c => c.view.Reconnects)
    (fun _ c => c.view.Reconnects) fun c => c.view.Reconnects where
  runs := stateContract_holds _ _
  waits := stateContract_holds _ _
  moved _ _ := Or.inr (Or.inr rfl)
  empty := Or.inl fun _ hc => Option.isSome_iff_ne_none.mp hc.2.socket
  stored := Or.inl fun _ hc => ⟨Option.isSome_iff_ne_none.mp hc.2.address, hc.2.connType⟩
  options _ _ hc := hc
  start _ _ hc := hc
  holds_read _ := stateContract_holds _ _
  read _ _ hc _ := hc
  present _ _ hc := hc
  holds_takeOver _ := stateContract_holds _ _
  takeOver _ _ _ hc _ := ⟨hc.1, rfl, hc.2.address, hc.2.connType⟩
  install _ _ hc := ⟨hc.1, rfl, hc.2.address, hc.2.connType⟩
  fresh _ _ hc := ⟨hc.1, rfl, hc.2.address, hc.2.connType⟩
  holds_installed := stateContract_holds _ _
  stateReset _ hc := hc

theorem PassInv.of_reconnects {v : View} (h : v.Reconnects) : PassInv v := .of_engaged (Or.inr h.1) h.2

theorem reconnectFut_view (stateless : Bool) : ViewTriple View.Reconnects (reconnectFut stateless) fun _ => PassInv :=
  stateAttempt.reconnectFut (E := fun _ c => c.view.Reconnects) (stateContract_holds _ _) (fun _ hc => hc)
    (setState_view fun _ hv => .of_engaged (Or.inl rfl) ⟨hv.2.socket, hv.2.address, hv.2.connType⟩)
    (fun _ _ hc => hc) (fun _ => stateContract_holds _ _)
    (fun _ _ hc _ _ => .of_reconnects ⟨hc.1, hc.2.socket, hc.2.address, hc.2.connType⟩)
    fun _ _ => .await (stateContract_holds _ _) fun _ _ _ hc _ => .of_reconnects hc

/-! ## Passes -/

theorem stateContract_tolerates : stateContract.Tolerates disconnectWaiter where
  rely _ _ h := h
  inv _ _ := trivial
  admits _ _ _ := trivial
  register _ := rfl
  drop _ := rfl

/-- A raced task may be dropped at any time. -/
theorem race_view {α : Type} {p : View → Prop} {q : α → View → Prop} {t : Worker α} {first : Bool}
    (h : ViewTriple p t q) : ViewTriple p (t.race disconnectWaiter first) fun r v => ∀ a, r = some a → q a v :=
  .race_some stateContract_tolerates (fun a => stateContract_holds _ (q a)) h

theorem drainMessages_view : ViewTriple PassInv drainMessages fun _ => PassInv := act_view fun _ hc => hc

theorem finishConnect_view (r : Option (ConnectionResult Unit)) :
    ViewTriple (fun v => ∀ a, r = some a → v.connState ≠ .connected ∧ (a = .ok () → v.Engaged)) (finishConnect r)
      fun _ => PassInv := by
  rcases r with _ | e | ⟨⟩
  · exact (threadCancelConnection_view (p := fun _ => True)).pre fun _ _ => trivial
  · have hfatal : ViewTriple (fun v => v.connState ≠ .connected) (onFatalError e) fun _ => PassInv :=
      (onFatalError_view e).pre fun c hc h => absurd h hc
    exact (hfatal.bind fun _ => drainMessages_view).pre fun c hc => (hc _ rfl).1
  · have hset : ViewTriple View.Engaged (setState .connected) fun _ => PassInv :=
      setState_view fun _ hv => .of_engaged (Or.inl rfl) ⟨hv.socket, hv.address, hv.connType⟩
    have herror : ViewTriple PassInv (setLastError (.other .success)) fun _ => PassInv := act_view fun _ hc => hc
    exact (hset.bind fun _ => herror.bind fun _ => drainMessages_view).pre fun c hc => (hc _ rfl).2 rfl

theorem disconnectedPass_view [Host] :
    ViewTriple (fun v => v.connState ≠ .connected) disconnectedPass fun _ => PassInv := by
  have hrecv : ViewTriple (fun v => v.connState ≠ .connected) recvRequest fun _ v => v.connState ≠ .connected :=
    recvRequest_triple (stateContract_holds _ fun v => v.connState ≠ .connected) fun _ _ _ hc _ => hc
  refine hrecv.bind fun url => ?_
  refine (race_view (threadConnect_view url)).bind fun r => ?_
  refine (finishConnect_view r).bind fun _ => ?_
  exact act_view (p := PassInv) (q := PassInv) fun _ hc => hc

/-- The view of a worker that is connected. -/
def View.Connected (v : View) : Prop := v.connState = .connected ∧ v.Engaged

theorem PassInv.of_connected {v : View} (h : v.Connected) : PassInv v := .of_engaged (Or.inl h.1) h.2

theorem wakeRule_view : WakeRule stateContract (fun c => c.view.Connected) fun c => PassInv c.view where
  runs := stateContract_holds _ _
  waits := stateContract_holds _ _
  empty := Or.inl fun _ hc => Option.isSome_iff_ne_none.mp hc.2.socket
  closing := setState_view fun _ hv => .of_closing rfl hv.2.socket
  fatal e := (onFatalError_view e).pre fun _ hc _ => hc.2
  lastError _ _ hc := .of_connected hc
  dataCallback _ _ hc := .of_connected hc
  weaken _ hc := .of_connected hc

theorem connectedPass_view : ViewTriple View.Connected connectedPass fun _ => PassInv := by
  refine connectedPass_triple
    (loadDisconnectReq_triple (stateContract_holds _ _) (fun _ hc _ => hc) fun _ hc _ => hc)
    wakeRule_view.closing wakeRule_view.runs wakeRule_view.empty
    (R := fun c => c.view.Connected) (W := fun _ c => c.view.Connected) wakeRule_view.waits (fun _ hc => hc) ?_ ?_
    fun wake => wakeRule_view.onWake fun _ _ => act_view (p := View.Connected) (q := View.Connected) fun _ hc => hc
  · intro r c wake c' hc hready
    exact (wakeReady_view hready).symm ▸ hc
  · intro r c wake c' hc _ hready
    exact (wakeReady_view hready).symm ▸ hc

theorem debounce_view {p : View → Prop} : ViewTriple p debounce fun _ => p :=
  debounce_triple stateContract_tolerates (fun suspends => stateContract_holds suspends p) fun _ hc => hc

theorem reconnectingPass_view : ViewTriple View.Reconnects reconnectingPass fun _ => PassInv := by
  refine reconnectingPass_triple (G := fun _ => True) (N := fun _ _ c => c.view.Reconnects)
    (loadDisconnectReq_triple (stateContract_holds _ _) (fun _ _ _ => trivial) fun _ hc _ => hc)
    (threadCancelConnection_view (p := fun _ => True))
    (.update (stateContract_holds _ _) fun _ hc => ⟨hc.1, hc.2.socket, hc.2.address, hc.2.connType⟩)
    (fun _ _ _ _ => trivial) (fun _ => debounce_view) (fun _ _ => stateContract_holds _ _) (fun _ _ _ hc => hc) ?_
    (fun _ hc => hc) (act_view (p := PassInv) (q := PassInv) fun _ hc => hc)
  intro attempt stateless _
  refine (race_view (reconnectFut_view stateless)).post fun r c hc => ?_
  cases r with
  | none => trivial
  | some a => exact hc a rfl

/-- The view of a worker that closes. -/
def View.Closes (v : View) : Prop := v.connState = .closing ∧ v.socket.isSome

theorem closingPass_view : ViewTriple View.Closes closingPass fun _ => PassInv := by
  refine closingPass_triple (stateContract_holds _ _) (stateContract_holds _ _)
    (Or.inl fun _ hc => Option.isSome_iff_ne_none.mp hc.2) (fun _ hc => .of_closing hc.1 hc.2) (fun e => ?_)
    (threadCancelConnection_view (p := View.Closes))
  exact (onFatalError_view e).pre fun c hc h => by rw [hc.1] at h; cases h

theorem workerThreadLoop_view [Host] : ViewTriple PassInv workerThreadLoop fun _ => PassInv := by
  have hread : ViewTriple PassInv (.read (·.connState)) fun state v => PassInv v ∧ v.connState = state :=
    .read (stateContract_holds _ _) fun _ hc => ⟨hc, rfl⟩
  refine hread.bind fun state => ?_
  split
  · exact disconnectedPass_view.pre fun c hc h => by rw [hc.2] at h; cases h
  iterate 3 exact fun c hc => absurd hc.1.state (by simp [hc.2])
  · exact connectedPass_view.pre fun c hc => ⟨hc.2, hc.1.engaged (Or.inl hc.2)⟩
  · exact reconnectingPass_view.pre fun c hc => ⟨hc.2, hc.1.engaged (Or.inr hc.2)⟩
  · exact closingPass_view.pre fun c hc => ⟨hc.2, hc.1.closing hc.2⟩

/-- Whenever a pass begins, the state, the socket and the stored address fit together; and a run ends early only because
of a destination or an attempt to connect, never for want of a socket or of an address to reconnect to. -/
theorem state_invariant [Host] {c : ConnectionConfig}
    (h : Running (fun _ e => ∀ b, e ≠ .other (.simulateConnectionDrop b)) c) :
    (c.task = .ret () → PassInv c.shared.view) ∧ ∀ why, c.task = .abort why → why.connecting := by
  have hsafe : Safe stateContract (fun _ c => PassInv c.view) c.task c.shared := by
    refine Triple.invariant workerThreadLoop_view (fun _ _ hc hview => ?_) (fun _ _ _ => trivial) ?_ ?_ h
    · exact (stateContract_holds false PassInv).stable _ _ hc hview
    · intro c e c' he hstep
      refine userStep_view ?_ hstep
      cases e with
      | simulateConnectionDrop b => exact absurd rfl (he b)
      | _ => trivial
    · exact .of_disconnected rfl rfl
  refine ⟨fun hret => ?_, fun why habort => ?_⟩
  · rw [hret] at hsafe
    exact hsafe
  · rw [habort] at hsafe
    exact hsafe.of_abort

theorem state_invariant_connected : ∃ c, @runConnection plainHost
    (callEvents (.connect tcpUrl) ++ attemptEvents ++ acceptEvents ++ connectedEvents) = some c ∧
    c.shared.connState = .connected ∧ PassInv c.shared.view := by
  obtain ⟨c, hrun, hstate⟩ := Option.map_eq_some_iff.mp (show (@runConnection plainHost
    (callEvents (.connect tcpUrl) ++ attemptEvents ++ acceptEvents ++ connectedEvents)).map (fun c =>
      (c.shared.connState, c.task.returned)) = some (.connected, true) by decide +kernel)
  simp only [Prod.mk.injEq] at hstate
  refine ⟨c, hrun, hstate.1, ?_⟩
  refine (@state_invariant plainHost c (@Running.of_run plainHost _ _ _ ?_ hrun)).1 (Task.eq_ret hstate.2)
  simp [callEvents, attemptEvents, acceptEvents, connectedEvents]

end Qunet
