import Qunet.Connection.Rules

/-!
# What most of the worker does not touch

* `PlainStep` : the path, the count of the attempts and a few events are left alone;
* `Plain` : tasks whose steps are all of this kind, which most functions of the worker are;
* `WorkerRule` : a property of tasks that plain tasks have and that sequences and races keep, so that with
  `makeOptions` whole passes have it (`WorkerRule.threadConnectWithIps`, `WorkerRule.reconnectingPass`,
  `WorkerRule.workerThreadLoop`);
* `WorkerRule.of_triple` : keeping a contract is such a property;
* `userStep_plain` : the public functions are plain.
-/

namespace Qunet
open Lib

/-- Events other than an attempt to connect, its options and the wait before one. -/
def Event.plain : Event → Bool
  | .threadConnect _ | .options _ | .debounced => false
  | _ => true

/-- The path stays, attempts are counted anew if at all, and what happens is plain. -/
structure PlainStep (c c' : Connection) : Prop where
  path : c'.connectPath = c.connectPath
  attempt : c'.data.reconnectAttempt = c.data.reconnectAttempt ∨ c'.data.reconnectAttempt = 0
  history : ∃ es, c'.history = es ++ c.history ∧ ∀ e ∈ es, e.plain = true

namespace PlainStep
variable {c c' c'' : Connection}

theorem quiet (hpath : c'.connectPath = c.connectPath)
    (hattempt : c'.data.reconnectAttempt = c.data.reconnectAttempt ∨ c'.data.reconnectAttempt = 0)
    (hhistory : c'.history = c.history) : PlainStep c c' :=
  ⟨hpath, hattempt, [], hhistory, by simp⟩

theorem refl (c : Connection) : PlainStep c c := quiet rfl (Or.inl rfl) rfl

theorem log {e : Event} (h : e.plain = true) (c : Connection) : PlainStep c (c.log e) :=
  ⟨rfl, Or.inl rfl, [e], rfl, by simpa using h⟩

theorem trans (h : PlainStep c c') (h' : PlainStep c' c'') : PlainStep c c'' := by
  obtain ⟨es, hes, hplain⟩ := h.history
  obtain ⟨es', hes', hplain'⟩ := h'.history
  refine ⟨h'.path.trans h.path, ?_, es' ++ es, ?_, ?_⟩
  · rcases h'.attempt with hsame | hzero
    · exact h.attempt.imp hsame.trans hsame.trans
    · exact Or.inr hzero
  · rw [hes', hes, List.append_assoc]
  · intro e he
    exact (List.mem_append.mp he).elim (hplain' e) (hplain e)

/-- An event that is not plain was there before. -/
theorem mem {e : Event} (h : PlainStep c c') (he : e.plain = false) : e ∈ c'.history ↔ e ∈ c.history := by
  obtain ⟨es, hes, hplain⟩ := h.history
  have hnew : e ∉ es := fun hmem => by simp [hplain e hmem] at he
  rw [hes, List.mem_append]
  simp [hnew]

end PlainStep

abbrev Plain {α : Type} (t : Worker α) : Prop := Confined PlainStep (fun _ => True) t

section
variable {α : Type}

theorem plain_read {f : Connection → α} : Plain (.read f) := .read .refl

theorem plain_ask {f : Answer → Option α} : Plain (.ask f) := .ask .refl

theorem plain_await {f : Answer → Option α} : Plain (.await f) := .await .refl

theorem plain_note {e : Event} (h : e.plain = true) : Plain (note e) := .act fun c => .log h c

/-- A step that leaves the history alone. -/
theorem plain_act {f : Connection → Connection} (hpath : ∀ c, (f c).connectPath = c.connectPath)
    (hattempt : ∀ c, (f c).data.reconnectAttempt = c.data.reconnectAttempt ∨ (f c).data.reconnectAttempt = 0)
    (hhistory : ∀ c, (f c).history = c.history) : Plain (.act f) :=
  .act fun c => .quiet (hpath c) (hattempt c) (hhistory c)

theorem Looks.plain {pinged : List SocketAddress} {t : Worker α} (h : Looks pinged t) : Plain t := by
  apply h.mono
  · intro c c' hstep
    cases hstep with
    | refl => exact .refl c
    | log e he => exact .log (by cases e <;> first | rfl | exact he.elim) c
  · exact fun _ h => h.elim

end

/-! ## The state and the errors -/

theorem setState_plain (state : ConnectionState) : Plain (setState state) := by
  apply Confined.bind (.update fun c => ⟨rfl, Or.inl rfl, [_], rfl, by simp [Event.plain]⟩)
  intro prev
  split
  · exact .bind (plain_note rfl) fun _ => .whenever (plain_act (fun _ => rfl) (fun _ => Or.inr rfl) fun _ => rfl)
  · exact .pure

theorem resetConnectionState_plain : Plain resetConnectionState :=
  .bind (plain_act (fun _ => rfl) (fun _ => Or.inr rfl) fun _ => rfl) fun _ =>
    .bind (plain_act (fun _ => rfl) (fun _ => Or.inl rfl) fun _ => rfl) fun _ =>
      plain_act (fun _ => rfl) (fun _ => Or.inl rfl) fun _ => rfl

theorem threadCancelConnection_plain : Plain threadCancelConnection :=
  .bind resetConnectionState_plain fun _ => setState_plain _

theorem setLastError_plain (e : ConnectionError) : Plain (setLastError e) :=
  plain_act (fun _ => rfl) (fun _ => Or.inl rfl) fun _ => rfl

theorem drainMessages_plain : Plain drainMessages :=
  .act fun _ => ⟨rfl, Or.inl rfl, [.drained], rfl, by simp [Event.plain]⟩

theorem onFatalError_plain (e : ConnectionError) : Plain (onFatalError e) := by
  apply Confined.bind (setLastError_plain e)
  intro
  apply Confined.bind plain_read
  intro state
  apply Confined.bind plain_ask
  intro shouldReconnect
  split
  · exact .bind drainMessages_plain fun _ => setState_plain _
  · exact threadCancelConnection_plain

theorem onConnectionError_plain (e : ConnectionError) : Plain (onConnectionError e) := by
  unfold onConnectionError
  split
  · exact onFatalError_plain e
  · exact setLastError_plain e

theorem onResult_plain (r : Except TransportError Unit) : Plain (onResult r) := by
  cases r with
  | error e => exact onConnectionError_plain _
  | ok => exact .pure

theorem derefSocket_plain : Plain derefSocket := by
  apply Confined.bind plain_read
  intro socket
  split
  · exact .pure
  · exact .abort trivial

/-! ## The socket -/

theorem connect_plain (options : TransportOptions) (qdbFolder : Option Text) :
    Plain (Socket.connect options qdbFolder) := by
  apply (connect_handshakes options qdbFolder).mono
  · intro c c' hstep
    cases hstep with
    | refl => exact .refl c
    | start m => exact .log rfl c
  · exact fun _ _ => trivial

theorem onReconnectSuccess_plain (socket : Socket) : Plain socket.onReconnectSuccess := by
  apply Confined.bind (.update fun c => .quiet rfl (Or.inl rfl) rfl)
  intro older
  split
  · exact .pure
  · exact .abort trivial

theorem reconnect_plain (options : TransportOptions) : Plain (Socket.reconnect options) := by
  have hcreate : Plain (Socket.createSocket options) :=
    (createSocket_silent .refl options).mono (fun _ _ h => h) fun _ _ => trivial
  apply Confined.bind hcreate
  intro r
  split
  · exact .pure
  · next socket _ =>
    apply Confined.bind derefSocket_plain
    intro prev
    apply Confined.bind (plain_note rfl)
    intro
    apply Confined.bind plain_await
    intro r
    split
    · exact .pure
    · exact .pure
    · exact .bind (onReconnectSuccess_plain socket) fun _ => .pure
    · exact .pure
    · exact .pure

theorem openSocket_plain (options : TransportOptions) (qdbDir : Option Text) (reconnect : Bool) :
    Plain (openSocket options qdbDir reconnect) := by
  unfold openSocket
  split
  · exact .bind derefSocket_plain fun _ => reconnect_plain options
  · exact connect_plain options qdbDir

/-! ## Connected and closing -/

theorem wakeReady_plain {r : Answer} {c c' : Connection} {wake : Wake} (h : wakeReady r c = some (wake, c')) :
    PlainStep c c' := by
  obtain ⟨m, chan, -, -, rfl⟩ | ⟨-, rfl | rfl⟩ := wakeReady_cases h
  · exact ⟨rfl, Or.inl rfl, [_], rfl, by simp [Event.plain]⟩
  · exact .refl c'
  · exact .quiet rfl (Or.inl rfl) rfl

theorem awaitWake_plain : Plain awaitWake := by
  intro r c wake? c' h
  dsimp only at h
  refine ⟨?_, ?_⟩
  · split at h
    · cases h
      exact .quiet rfl (Or.inl rfl) rfl
    · obtain ⟨p, hp, hq⟩ := Option.map_eq_some_iff.mp h
      cases hq
      exact (wakeReady_plain hp).trans (.log rfl _)
    · obtain ⟨p, hp, hq⟩ := Option.map_eq_some_iff.mp h
      cases hq
      exact (wakeReady_plain hp).trans (.log rfl _)
    · cases h
  · cases wake? with
    | some wake => trivial
    | none =>
      intro r c wake c' h
      obtain ⟨p, hp, hq⟩ := Option.map_eq_some_iff.mp h
      cases hq
      have hdrop : PlainStep p.2 (disconnectWaiter.drop p.2) := .quiet rfl (Or.inl rfl) rfl
      exact ⟨((wakeReady_plain hp).trans hdrop).trans (.log rfl _), trivial⟩

theorem recvRequest_plain : Plain recvRequest := by
  intro r c url c' h
  dsimp only at h
  split at h
  · obtain ⟨p, hp, hq⟩ := Option.map_eq_some_iff.mp h
    cases hq
    exact ⟨⟨rfl, Or.inl rfl, [_], rfl, by simp [Event.plain]⟩, trivial⟩
  · cases h

theorem finishConnect_plain (r : Option (ConnectionResult Unit)) : Plain (finishConnect r) := by
  unfold finishConnect
  split
  · exact .bind (setState_plain _) fun _ => .bind (setLastError_plain _) fun _ => drainMessages_plain
  · exact .bind (onFatalError_plain _) fun _ => drainMessages_plain
  · exact threadCancelConnection_plain

theorem onWake_plain (wake : Wake) : Plain (onWake wake) := by
  unfold onWake
  split
  · exact .bind derefSocket_plain fun _ => .bind (plain_note rfl) fun _ => .bind plain_await fun r => onResult_plain r
  · exact .bind derefSocket_plain fun _ => .bind plain_await fun r => onResult_plain r
  · exact setState_plain _
  · exact onConnectionError_plain _
  · unfold threadHandleIncomingMessage
    split
    · split
      · exact .pure
      · exact plain_note rfl
    · exact onFatalError_plain _
    · exact .pure
  · exact .pure

theorem loadDisconnectReq_plain : Plain loadDisconnectReq :=
  .update fun c => .log rfl c

theorem connectedPass_plain : Plain connectedPass := by
  apply Confined.bind loadDisconnectReq_plain
  intro requested
  split
  · exact setState_plain _
  · exact .bind derefSocket_plain fun _ => .bind derefSocket_plain fun _ => .bind awaitWake_plain onWake_plain

theorem closingPass_plain : Plain closingPass := by
  apply Confined.bind plain_read
  intro socket
  split
  · exact .pure
  · refine .bind derefSocket_plain fun _ => .bind plain_await fun _ => .bind plain_await fun _ =>
      .bind derefSocket_plain fun _ => .bind plain_await fun r => ?_
    split
    · exact onFatalError_plain _
    · exact .bind derefSocket_plain fun _ => .bind plain_await fun _ => threadCancelConnection_plain

/-! ## Whole passes -/

/-- What makes a property of tasks one of the whole worker. -/
structure WorkerRule (X : ∀ {α : Type}, Worker α → Prop) : Prop where
  plain : ∀ {α : Type} {t : Worker α}, Plain t → X t
  bind : ∀ {α β : Type} {t : Worker α} {g : α → Worker β}, X t → (∀ a, X (g a)) → X (t >>= g)
  race : ∀ {α : Type} {t : Worker α} {first : Bool}, X t → X (t.race disconnectWaiter first)
  options : ∀ address type reconnecting, X (makeOptions address type reconnecting)

namespace WorkerRule
variable {X : ∀ {α : Type}, Worker α → Prop} (rule : WorkerRule X)
include rule

theorem pure {α : Type} {a : α} : X (pure a : Worker α) := rule.plain .pure

theorem threadConnectSocket (address : SocketAddress) (type : ConnectionType) (reconnect : Bool) :
    X (threadConnectSocket address type reconnect) := by
  refine rule.bind (rule.options address type reconnect) fun opts => ?_
  refine rule.bind (rule.plain plain_read) fun qdbDir => ?_
  refine rule.bind (rule.plain (openSocket_plain opts qdbDir reconnect)) fun r => ?_
  split
  · exact rule.pure
  · exact rule.bind (rule.plain (plain_act (fun _ => rfl) (fun _ => Or.inl rfl) fun _ => rfl)) fun _ => rule.pure

section
variable [Host]

theorem threadEstablishConn (address : SocketAddress) (type : ConnectionType) :
    X (threadEstablishConn address type) := by
  refine rule.bind (rule.plain (plain_note rfl)) fun _ => ?_
  split
  · exact rule.pure
  · refine rule.bind (rule.plain (initTlsContext_looks type).plain) fun ready => ?_
    split
    · exact rule.pure
    · exact rule.threadConnectSocket address type false

theorem tryCandidates (addrs : List Candidate) (errors : List (SocketAddress × ConnectionType × ConnectionError)) :
    X (tryCandidates addrs errors) := by
  induction addrs generalizing errors with
  | nil => exact rule.pure
  | cons a rest ih =>
    refine rule.bind (rule.threadEstablishConn a.1 a.2) fun r => ?_
    split
    · exact ih _
    · exact rule.bind (rule.plain (plain_act (fun _ => rfl) (fun _ => Or.inl rfl) fun _ => rfl)) fun _ => rule.pure

theorem threadFinalConnect (addrs : List Candidate) : X (threadFinalConnect addrs) :=
  rule.bind (rule.plain (.assert trivial)) fun _ => rule.bind (rule.plain (setState_plain _)) fun _ =>
    rule.bind (rule.plain plain_read) fun _ => rule.tryCandidates _ _

theorem threadPingCandidates (addrs : List SocketAddress) : X (threadPingCandidates addrs) :=
  rule.bind (rule.plain (setState_plain _)) fun _ => rule.bind (rule.plain (startPings_looks fun _ => id).plain) fun _ =>
    rule.bind (rule.plain (awaitPings_looks _ _ _ _).plain) fun _ => rule.bind (rule.plain plain_read) fun _ =>
      rule.bind (rule.plain plain_ask) fun _ => rule.threadFinalConnect _

theorem threadConnectWithIps (addrs : List SocketAddress) (type : ConnectionType) (preferIpv6 : Bool) :
    X (threadConnectWithIps addrs type preferIpv6) := by
  unfold Qunet.threadConnectWithIps
  split
  · exact rule.pure
  · dsimp only
    split
    · exact rule.threadPingCandidates _
    · exact rule.threadFinalConnect _

theorem threadConnectDomain (hostname : Text) (port : Option UInt16) (type : ConnectionType) :
    X (threadConnectDomain hostname port type) := by
  refine rule.bind (rule.plain (setState_plain _)) fun _ => ?_
  refine rule.bind (rule.plain plain_read) fun settings => ?_
  refine rule.bind (rule.plain (resolveDomain_looks hostname port type settings).plain) fun addrs => ?_
  split
  · exact rule.pure
  · refine rule.bind (rule.plain (plain_act (fun _ => rfl) (fun _ => Or.inl rfl) fun _ => rfl)) fun _ => ?_
    exact rule.threadConnectWithIps _ _ _

end

theorem threadTryReconnect (stateless : Bool) : X (threadTryReconnect stateless) := by
  refine rule.bind (rule.plain (.act fun c => .log rfl c)) fun _ => ?_
  refine rule.bind (rule.plain plain_read) fun data => ?_
  split
  · exact rule.plain (.abort trivial)
  · refine rule.bind (rule.plain (.assert trivial)) fun _ => ?_
    refine rule.bind (rule.threadConnectSocket _ _ _) fun r => ?_
    split
    · exact rule.pure
    · exact rule.bind (rule.plain (.whenever (plain_note rfl))) fun _ => rule.pure

theorem reconnectFut (stateless : Bool) : X (reconnectFut stateless) := by
  refine rule.bind (rule.threadTryReconnect stateless) fun r => ?_
  split
  · exact rule.plain (setState_plain _)
  · refine rule.bind (rule.plain (plain_note rfl)) fun _ => ?_
    split
    · exact rule.plain (plain_act (fun _ => rfl) (fun _ => Or.inl rfl) fun _ => rfl)
    · exact rule.plain plain_await

theorem reconnectingPass (hnext : X nextAttempt) (hdebounce : X debounce) : X reconnectingPass := by
  refine rule.bind (rule.plain loadDisconnectReq_plain) fun requested => ?_
  split
  · exact rule.plain threadCancelConnection_plain
  · refine rule.bind hnext fun next => ?_
    obtain ⟨attempt, stateless⟩ := next
    dsimp only
    split
    · exact rule.plain threadCancelConnection_plain
    · have hwaited : X (Task.whenever (attempt = 0) debounce) := by
        unfold Task.whenever
        split
        · exact hdebounce
        · exact rule.pure
      refine rule.bind hwaited fun _ => ?_
      refine rule.bind (rule.plain (plain_act (fun _ => rfl) (fun _ => Or.inl rfl) fun _ => rfl)) fun _ => ?_
      refine rule.bind (rule.race (rule.reconnectFut stateless)) fun r => ?_
      have hfinish : Plain (cancelIfNone r) := by
        cases r with
        | none => exact threadCancelConnection_plain
        | some => exact .pure
      exact rule.bind (rule.plain hfinish) fun _ => rule.plain (plain_note rfl)

variable [Host]

theorem disconnectedPass (hconnect : ∀ url, X (threadConnect url)) : X disconnectedPass :=
  rule.bind (rule.plain recvRequest_plain) fun url => rule.bind (rule.race (hconnect url)) fun r =>
    rule.bind (rule.plain (finishConnect_plain r)) fun _ => rule.plain (plain_note rfl)

theorem workerThreadLoop (hconnect : ∀ url, X (threadConnect url)) (hreconnecting : X Qunet.reconnectingPass) :
    X workerThreadLoop := by
  refine rule.bind (rule.plain plain_read) fun state => ?_
  split
  · exact rule.disconnectedPass hconnect
  · exact rule.plain (setState_plain _)
  · exact rule.plain (setState_plain _)
  · exact rule.plain (setState_plain _)
  · exact rule.plain connectedPass_plain
  · exact hreconnecting
  · exact rule.plain closingPass_plain

end WorkerRule

/-- What plain steps keep, and what holds whenever the task waits, the worker keeps. -/
theorem WorkerRule.of_triple {C : Contract Connection Answer Abort} {P : Connection → Prop}
    (hplain : ∀ c c', P c → PlainStep c c' → P c') (habort : ∀ why c, P c → C.aborts why c)
    (hholds : ∀ suspends, C.Holds suspends P) (hC : C.Tolerates disconnectWaiter) (hwait : ∀ c, C.inv true c → P c)
    (hoptions : ∀ address type reconnecting, Triple C P (makeOptions address type reconnecting) fun _ => P) :
    WorkerRule fun t => Triple C P t fun _ => P where
  plain h := h.triple hplain (fun why c _ hc => habort why c hc) (hholds false) (hholds true)
  bind h hg := h.bind hg
  race h := (Triple.race hC (fun _ => hholds false) (h.whileWaiting hwait)).post fun o c hc => by
    cases o with
    | none => exact hc
    | some a => exact hc
  options := hoptions

/-! ## The public functions -/

theorem dropped_plain (b : Bool) (c : Connection) : PlainStep c (c.dropped b) := by
  by_cases h : c.connState = .connected ∧ b = true
  · obtain ⟨hstate, rfl⟩ := h
    rw [dropped_connected hstate]
    exact ⟨rfl, Or.inl rfl, [_, _, _], rfl, by simp [Event.plain]⟩
  · rw [dropped_disconnected h]
    refine ⟨rfl, Or.inr rfl, (if c.connState = .disconnected then [] else [.callback .disconnected]) ++
      [.exchange c.connState .disconnected none], by simp, ?_⟩
    split <;> simp [Event.plain]

theorem userStep_plain {e : UserEvent} {c c' : Connection} (h : userStep e c = some c') : PlainStep c c' := by
  cases userStep_change h with
  | connectOk => exact ⟨rfl, Or.inl rfl, [_], rfl, by simp [Event.plain]⟩
  | accepted => exact ⟨rfl, Or.inl rfl, [_], rfl, by simp [Event.plain]⟩
  | disconnected => exact ⟨rfl, Or.inl rfl, [_], rfl, by simp [Event.plain]⟩
  | drop b => exact dropped_plain b c
  | _ => exact .quiet rfl (Or.inl rfl) rfl

end Qunet
