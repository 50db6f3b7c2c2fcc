import Qunet.Connection.History
import Qunet.Stream.Closed

/-!
# A connected worker and a peer that closes

* `receiving` : the worker waits in `receiveMessage`;
* `Left`, `LeavesConnected` : it does not wait again before it has left `Connected`;
* `leaves_of_fatal`, `stays_of_not_fatal` : what it does with a fatal error, and with another one;
* **`closure_fatal_iff`** : it leaves `Connected` when the peer closes, unless the transport is a WebSocket;
* `erased_stream_stays` : it does not when the peer only closes the stream of a QUIC connection.
-/

namespace Qunet
open Lib

/-- A connected worker whose `select` waits, and with it the call of `receiveMessage`. -/
def receiving : Worker Unit := do
  onWake (← .step true (fun r c => (wakeReady r c).map fun p => (p.1, (disconnectWaiter.drop p.2).log .selected)) .ret)

/-- The state has been exchanged for another one than `Connected`. -/
def Left (c₀ c : Connection) : Prop :=
  ∃ new, c.history = new ++ c₀.history ∧
    ∃ prev state socket, state ≠ .connected ∧ Event.exchange prev state socket ∈ new

theorem Left.of_exchange {c₀ c : Connection} {state : ConnectionState} (h : Grows c₀ c) (hstate : state ≠ .connected) :
    Left c₀ (c.exchange state) := by
  obtain ⟨new, hnew⟩ := h
  refine ⟨.exchange c.connState state c.socket :: new, ?_, c.connState, state, c.socket, hstate, List.mem_cons_self⟩
  simp only [Connection.exchange, Connection.log, ← hnew, List.cons_append]

theorem Left.grows {c₀ c c' : Connection} (h : Left c₀ c) (hgrows : Grows c c') : Left c₀ c' := by
  obtain ⟨new, hnew, prev, state, socket, hstate, hmem⟩ := h
  obtain ⟨newer, hnewer⟩ := hgrows
  refine ⟨newer ++ new, ?_, prev, state, socket, hstate, List.mem_append_right _ hmem⟩
  rw [← hnewer, hnew, List.append_assoc]

section
variable [Host]

/-- Once this error is returned, the worker leaves `Connected` before it waits for anything again. -/
def LeavesConnected (e : TransportError) (c : ConnectionConfig) : Prop :=
  ∀ events c', Config.run workerThreadLoop userStep (.own (.incoming (.error e)) :: events) c = some c' →
    c'.task.suspends = true → Left c.shared c'.shared

/-! ## Fatal errors -/

/-- The others append to the history, and the worker must not wait before it has left `Connected`. -/
def leavingContract (c₀ : Connection) : Contract Connection Answer Abort where
  rely _ := Grows
  admits _ _ _ := True
  inv suspends c := suspends = true → Left c₀ c
  aborts _ _ := True

end

section
variable {c₀ : Connection}

theorem leaving_before : (leavingContract c₀).Holds false (Grows c₀) :=
  ⟨fun _ _ h => (by cases h), fun _ _ => Grows.trans⟩

theorem leaving_after (suspends : Bool) : (leavingContract c₀).Holds suspends (Left c₀) :=
  ⟨fun _ h _ => h, fun _ _ => Left.grows⟩

/-- After the exchange, any task that only appends to the history keeps the contract. -/
theorem Appends.after {t : Worker Unit} (h : Appends t) : Triple (leavingContract c₀) (Left c₀) t fun _ => Left c₀ :=
  h.triple (fun _ _ => Left.grows) (fun _ _ _ _ => trivial) (leaving_after false) (leaving_after true)

theorem setState_leaves {state : ConnectionState} (hstate : state ≠ .connected) :
    Triple (leavingContract c₀) (Grows c₀) (setState state) fun _ => Left c₀ :=
  setState_triple_of_ne hstate leaving_before (leaving_after false) (fun _ hc => .of_exchange hc hstate)
    fun c hc => hc.grows (grows_log _ c)

theorem onFatalError_leaves (e : ConnectionError) :
    Triple (leavingContract c₀) (Grows c₀) (onFatalError e) fun _ => Left c₀ := by
  refine Triple.bind (Q := fun _ => Grows c₀) (.act leaving_before fun _ hc => hc) fun _ => ?_
  refine Triple.bind (Q := fun _ => Grows c₀) (.read leaving_before fun _ hc => hc) fun state => ?_
  refine Triple.bind (Q := fun _ => Grows c₀) (.ask leaving_before fun _ _ _ hc _ => hc) fun shouldReconnect => ?_
  split
  · have hdrain : Triple (leavingContract c₀) (Grows c₀) drainMessages fun _ => Grows c₀ :=
      .act leaving_before fun c hc => hc.trans (grows_log .drained { c with msgChan := .empty })
    exact hdrain.bind fun _ => setState_leaves (by decide)
  · have hreset : Triple (leavingContract c₀) (Grows c₀) resetConnectionState fun _ => Grows c₀ :=
      resetConnectionState_triple leaving_before (fun _ hc => hc) (fun _ hc => hc) fun _ hc => hc
    exact hreset.bind fun _ => setState_leaves (by decide)

end

section
variable [Host]

theorem leaves_of_fatal {e : TransportError} (he : isFatalError (.transport e) = true) {c : ConnectionConfig}
    (hc : c.task = receiving) : LeavesConnected e c := by
  intro events c' hrun hsuspends
  obtain ⟨c, task⟩ := c
  dsimp only at hc
  subst hc
  have hwake : onWake (.incoming (.error e)) = onFatalError (.transport e) := if_pos he
  have hrest : Config.run workerThreadLoop userStep events
      ⟨(disconnectWaiter.drop c).log .selected, onWake (.incoming (.error e))⟩ = some c' := hrun
  rw [hwake] at hrest
  have hstart : Safe (leavingContract c) (fun _ => Left c) (onFatalError (.transport e))
      ((disconnectWaiter.drop c).log .selected) :=
    onFatalError_leaves _ _ (grows_log .selected (disconnectWaiter.drop c))
  refine (Safe.run (workerThreadLoop_appends.after) (fun _ _ => Left.grows) (fun _ _ _ => trivial)
    (fun _ e _ _ h => userStep_grows h) hstart hrest).of_suspends hsuspends rfl

/-! ## Other errors -/

/-- From the beginning of a pass to the `select`, when nothing is ready. -/
def waitEvents : List ConnectionEvent := List.replicate 5 (.own .ready) ++ [.own .pending]

theorem run_receiving {c : Connection} {s : Socket} (hstate : c.connState = .connected)
    (hreq : c.disconnectReq = false) (hs : c.socket = some s) :
    Config.run workerThreadLoop userStep waitEvents ⟨c, .ret ()⟩ =
      some ⟨disconnectWaiter.register (c.log (.loaded false)), receiving⟩ := by
  obtain ⟨state, _, _, _, _, _, _, _, socket, _, _, req⟩ := c
  dsimp only at hstate hreq hs
  subst hstate hreq hs
  rfl

/-- The pass is over, and another one begins. -/
theorem run_error {c : Connection} {e : TransportError} (he : isFatalError (.transport e) = false) :
    Config.run workerThreadLoop userStep [.own (.incoming (.error e)), .own .ready] ⟨c, receiving⟩ =
      some ⟨{ (disconnectWaiter.drop c).log .selected with lastError := .transport e }, .ret ()⟩ := by
  have hwake : onWake (.incoming (.error e)) = setLastError (.transport e) := if_neg (by simp [he])
  show Config.run workerThreadLoop userStep [.own .ready] ⟨_, onWake (.incoming (.error e))⟩ = _
  rw [hwake]
  rfl

/-- The worker calls `receiveMessage` again. -/
theorem stays_of_not_fatal {e : TransportError} (he : isFatalError (.transport e) = false) {c : ConnectionConfig}
    {socket : Socket} (hc : c.task = receiving) (hstate : c.shared.connState = .connected)
    (hreq : c.shared.disconnectReq = false) (hsocket : c.shared.socket = some socket) : ¬ LeavesConnected e c := by
  intro hleaves
  obtain ⟨c, task⟩ := c
  dsimp only at hc hstate hreq hsocket
  subst hc
  have hselect := run_receiving (c := { (disconnectWaiter.drop c).log .selected with lastError := .transport e })
    hstate hreq hsocket
  have hrun : Config.run workerThreadLoop userStep ([.own (.incoming (.error e)), .own .ready] ++ waitEvents)
      ⟨c, receiving⟩ = _ := (Config.run_append (run_error he)).trans hselect
  obtain ⟨new, hnew, prev, state, s, -, hmem⟩ := hleaves _ _ hrun rfl
  have hhistory : [.loaded false, .selected] ++ c.history = new ++ c.history := hnew
  have hevents : [.loaded false, .selected] = new := List.append_cancel_right hhistory
  subst hevents
  simp at hmem

/-- A connected worker may come to its `select`. -/
theorem Running.receiving {c : ConnectionConfig} {socket : Socket} (h : Running (fun _ _ => True) c)
    (hret : c.task.returned = true) (hstate : c.shared.connState = .connected) (hreq : c.shared.disconnectReq = false)
    (hsocket : c.shared.socket = some socket) :
    ∃ c', Running (fun _ _ => True) c' ∧ c'.task = receiving ∧ c'.shared.connState = .connected ∧
      c'.shared.disconnectReq = false ∧ c'.shared.socket = some socket := by
  obtain ⟨c, task⟩ := c
  have htask : task = .ret () := Task.eq_ret hret
  subst htask
  exact ⟨_, Config.Runs.run h (fun _ _ _ => trivial) (run_receiving hstate hreq hsocket), rfl, hstate, hreq, hsocket⟩

/-! ## Closed peers -/

/-- A QUIC stream that the peer has closed on an open connection is not fatal: the worker receives again. -/
theorem erased_stream_stays {conn : QuicConnection} (hclosed : conn.closed = false)
    (hcancelled : conn.cancelled = false) {room : Nat} (hroom : 0 < room) :
    ∃ e, conn.receive none room = some (.error e) ∧ ∀ (c : ConnectionConfig) (socket : Socket), c.task = receiving →
      c.shared.connState = .connected → c.shared.disconnectReq = false → c.shared.socket = some socket →
      ¬ LeavesConnected e c :=
  ⟨_, QuicConnection.receive_erased hclosed hcancelled hroom, fun _ _ htask hstate hreq hsocket =>
    stays_of_not_fatal rfl htask hstate hreq hsocket⟩

end

section
variable [Dbuf]

/-- A closed peer is fatal, and the worker leaves `Connected` instead of receiving again, exactly on the transports that
are not WebSockets: `isFatalError` does not know their error. -/
theorem closure_fatal_iff [Host] {type : ConnectionType} {e : TransportError} (h : ReportsClosure type e) :
    (isFatalError (.transport e) = true ∧
      ∀ c, Running (fun _ _ => True) c → c.task = receiving → LeavesConnected e c) ↔
    type ≠ .webSocket ∧ type ≠ .webSocketTls := by
  refine ⟨fun hclosed => h.isFatal_iff.mp hclosed.1, fun htype => ?_⟩
  have hfatal := h.isFatal_iff.mpr htype
  exact ⟨hfatal, fun _ _ hc => leaves_of_fatal hfatal hc⟩

end

theorem tcp_reportsClosure : @ReportsClosure Dbuf.little .tcp (.custom .closed) := by
  let _ : Dbuf := Dbuf.little
  let s : StreamTransport Ring := { recvBuffer := Ring.empty 0, stream := [.bytes []] }
  have hneeds : @NeedsData Dbuf.little Ring _ s := Or.inl (by decide)
  have hroom : ¬ NoBufferSpace s.recvBuffer := by decide
  have hreaches : @ReachesRead Dbuf.little Ring _ UdpTransport.idleWorld (.bytes []) s := .here hneeds hroom rfl
  obtain ⟨s', hloop⟩ := hreaches.loop_returns ClosingRead.tcp.ending_eq _ (Nat.lt_succ_self _)
  exact .stream .tcp hreaches hloop

/-- The peer closes a TCP connection. -/
theorem closure_fatal_tcp : isFatalError (.transport (.custom .closed)) = true ∧
    ∀ c, @Running plainHost (fun _ _ => True) c → c.task = receiving → @LeavesConnected plainHost (.custom .closed) c :=
  (@closure_fatal_iff Dbuf.little plainHost _ _ tcp_reportsClosure).mpr (by decide)

/-! ### A WebSocket -/

/-- A build with WebSockets, where every host is the IPv4 address 1. -/
@[reducible] def webSocketHost : Host where
  parseIpAddress _ := some (.v4 1)
  parseIpv6Address _ := none
  quicSupport := false
  wsSupport := true
  tlsSupport := false

def webSocketUrl : Text := ['w', 's', ':', '/', '/', 'h']

theorem webSocket_receiving : ∃ c, @Running webSocketHost (fun _ _ => True) c ∧ c.task = receiving ∧
    c.shared.connState = .connected ∧ c.shared.disconnectReq = false ∧ c.shared.socket.isSome := by
  obtain ⟨c, hrun, hend⟩ := Option.map_eq_some_iff.mp (show (@runConnection webSocketHost
    (callEvents (.connect webSocketUrl) ++ attemptEvents ++ acceptEvents ++ connectedEvents)).map (fun c =>
      (c.task.returned, c.shared.connState, c.shared.disconnectReq, c.shared.socket.isSome)) =
    some (true, .connected, false, true) by decide +kernel)
  simp only [Prod.mk.injEq] at hend
  obtain ⟨hret, hstate, hreq, hsome⟩ := hend
  obtain ⟨socket, hsocket⟩ := Option.isSome_iff_exists.mp hsome
  have hruns := @Running.of_run webSocketHost (fun _ _ => True) _ c (fun _ _ _ => trivial) hrun
  obtain ⟨c', hruns', htask, hstate', hreq', hsocket'⟩ :=
    @Running.receiving webSocketHost c socket hruns hret hstate hreq hsocket
  exact ⟨c', hruns', htask, hstate', hreq', by rw [hsocket']; rfl⟩

/-- The peer closes the WebSocket with the code 1000: the worker stays connected and receives again. -/
theorem webSocket_close_stays :
    ¬ ∀ (type : ConnectionType) (e : TransportError), @ReportsClosure Dbuf.little type e →
      ∀ (host : Host) (c : ConnectionConfig), @Running host (fun _ _ => True) c → c.task = receiving →
        isFatalError (.transport e) = true ∧ @LeavesConnected host e c := by
  intro hclaim
  obtain ⟨c, hruns, htask, hstate, hreq, hsome⟩ := webSocket_receiving
  obtain ⟨socket, hsocket⟩ := Option.isSome_iff_exists.mp hsome
  have hreports : @ReportsClosure Dbuf.little .webSocket _ :=
    @ReportsClosure.closeFrame Dbuf.little .webSocket 1000 "" UdpTransport.idleWorld {} {} _ (Or.inl rfl) rfl
  have hleaves := (hclaim _ _ hreports webSocketHost c hruns htask).2
  exact @stays_of_not_fatal webSocketHost _ rfl c socket htask hstate hreq hsocket hleaves

end Qunet
