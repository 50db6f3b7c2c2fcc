import Qunet.Connection.Worker

/-!
# The steps of an attempt to connect

* `ConnectStep` : what one step of `threadConnect`, or of anything it calls, may change;
* `PrepareStep` : those that leave the socket and the stored data alone;
* `LookupStep` : those that only ask for addresses;
* `Connects`, `Prepares`, `Looks` : tasks whose steps are all of these kinds;
* **`threadConnect_connects`** : an attempt is such a task, and how it may abort.
-/

namespace Qunet
open Lib

/-- The states of an attempt to connect. -/
def ConnectionState.intermediate : ConnectionState → Bool
  | .dnsResolving | .pinging | .connecting => true
  | _ => false

/-- What the worker logs while it connects. -/
def Event.connecting : Event → Bool
  | .threadConnect _ | .query _ | .pinged _ | .establish .. | .options _ | .handshake (.handshakeStart _) => true
  | .callback state => state.intermediate
  | _ => false

inductive ConnectStep (c : Connection) : Connection → Prop where
  | refl : ConnectStep c c
  | log (e : Event) (h : e.connecting) : ConnectStep c (c.log e)
  | exchange (state : ConnectionState) (h : state.intermediate) : ConnectStep c (c.exchange state)
  | target (connectHostname connectPath : Text) : ConnectStep c { c with connectHostname, connectPath }
  | data (data : ConnectionData) (h : data.reconnectAttempt = 0 ∨ data.reconnectAttempt = c.data.reconnectAttempt) :
      ConnectStep c { c with data }
  | request : ConnectStep c { c with disconnectReq := false }
  | socket (socket : Option Socket) : ConnectStep c { c with socket }

def Abort.connecting (why : Abort) : Prop := why = .urlIndex ∨ why = .noCandidates ∨ why = .movedTransport

abbrev Connects {α : Type} (t : Worker α) : Prop := Confined ConnectStep Abort.connecting t

/-- Until there is a socket. -/
inductive PrepareStep (c : Connection) : Connection → Prop where
  | refl : PrepareStep c c
  | log (e : Event) (h : e.connecting) : PrepareStep c (c.log e)
  | exchange (state : ConnectionState) (h : state.intermediate) : PrepareStep c (c.exchange state)
  | target (connectHostname connectPath : Text) : PrepareStep c { c with connectHostname, connectPath }

theorem PrepareStep.connectStep {c c' : Connection} (h : PrepareStep c c') : ConnectStep c c' := by
  cases h with
  | refl => exact .refl
  | log e h => exact .log e h
  | exchange state h => exact .exchange state h
  | target connectHostname connectPath => exact .target connectHostname connectPath

abbrev Prepares {α : Type} (t : Worker α) : Prop := Confined PrepareStep Abort.connecting t

/-- What the worker logs while it looks for addresses, some of which it pings. -/
def Event.lookup (pinged : List SocketAddress) : Event → Prop
  | .query _ => True
  | .pinged address => address ∈ pinged
  | _ => False

inductive LookupStep (pinged : List SocketAddress) (c : Connection) : Connection → Prop where
  | refl : LookupStep pinged c c
  | log (e : Event) (h : e.lookup pinged) : LookupStep pinged c (c.log e)

abbrev Looks (pinged : List SocketAddress) {α : Type} (t : Worker α) : Prop :=
  Confined (LookupStep pinged) (fun _ => False) t

section
variable {α : Type} {pinged : List SocketAddress}

theorem Looks.prepares {t : Worker α} (h : Looks pinged t) : Prepares t := by
  apply h.mono
  · intro c c' hstep
    cases hstep with
    | refl => exact .refl
    | log e he => exact .log e (by cases e <;> first | rfl | exact he.elim)
  · exact fun _ hwhy => hwhy.elim

theorem looks_query (name : Text) : Looks pinged (note (.query name)) := .act fun _ => .log _ trivial

theorem looks_pinged {address : SocketAddress} (h : address ∈ pinged) : Looks pinged (note (.pinged address)) :=
  .act fun _ => .log _ h

theorem looks_ask {f : Answer → Option α} : Looks pinged (.ask f) := .ask fun _ => .refl

theorem looks_await {f : Answer → Option α} : Looks pinged (.await f) := .await fun _ => .refl

theorem Prepares.connects {t : Worker α} (h : Prepares t) : Connects t :=
  h.mono (fun _ _ hstep => hstep.connectStep) fun _ hwhy => hwhy

theorem prepares_read {f : Connection → α} : Prepares (.read f) := .read fun _ => .refl

theorem prepares_ask {f : Answer → Option α} : Prepares (.ask f) := .ask fun _ => .refl

theorem prepares_note {e : Event} (h : e.connecting) : Prepares (note e) := .act fun _ => .log e h

end

theorem setState_prepares {state : ConnectionState} (h : state.intermediate) : Prepares (setState state) := by
  apply Confined.bind (.update fun c => .exchange state h)
  intro prev
  split
  · apply Confined.bind (prepares_note (show (Event.callback state).connecting from h))
    intro
    have hstate : state ≠ .connected := by
      rintro rfl
      cases h
    rw [Task.whenever, if_neg hstate]
    exact .pure
  · exact .pure

theorem resetConnectionState_connects : Connects resetConnectionState :=
  .bind (.act fun _ => .data {} (Or.inl rfl)) fun _ =>
    .bind (.act fun _ => .request) fun _ => .act fun _ => .socket none

/-! ## The socket -/

/-- A socket is made without touching the connection. -/
theorem createSocket_silent {A : Connection → Connection → Prop} (hA : ∀ c, A c c) (options : TransportOptions) :
    Confined A (· = Abort.movedTransport) (Socket.createSocket options) := by
  apply Confined.bind (.await hA)
  intro r
  split
  · exact .pure
  · apply Confined.bind (.ask hA)
    intro elapsed
    split
    · exact .bind (.await hA) fun _ => .pure
    · apply Confined.bind (.ask hA)
      intro elapsed
      exact .bind (.assert rfl) fun _ => .pure

theorem onHandshakeSuccess_silent {A : Connection → Connection → Prop} (hA : ∀ c, A c c) (socket : Socket)
    (m : HandshakeFinishMessage) : Confined A (· = Abort.movedTransport) (socket.onHandshakeSuccess m) := by
  unfold Socket.onHandshakeSuccess
  split
  · apply Confined.bind (.ask hA)
    intro r
    split
    · exact .pure
    · apply Confined.bind (.ask hA)
      intro r
      split
      · exact .pure
      · exact .bind (.whenever (.await hA)) fun _ => .pure
  · apply Confined.bind (.ask hA)
    intro r
    split <;> exact .pure

/-- Nothing happens, or a handshake is started. -/
inductive HandshakeStep (c : Connection) : Connection → Prop where
  | refl : HandshakeStep c c
  | start (m : HandshakeStartMessage) : HandshakeStep c (c.log (.handshake (.handshakeStart m)))

theorem connect_handshakes (options : TransportOptions) (qdbFolder : Option Text) :
    Confined HandshakeStep (· = Abort.movedTransport) (Socket.connect options qdbFolder) := by
  apply Confined.bind (createSocket_silent (fun _ => .refl) options)
  intro r
  split
  · exact .pure
  · next socket _ =>
    have hfind : Confined HandshakeStep (· = Abort.movedTransport) (Socket.findQdb socket qdbFolder) := by
      unfold Socket.findQdb
      split
      · exact .pure
      · exact .bind (.await fun _ => .refl) fun _ => .pure
    apply Confined.bind hfind
    intro socket
    apply Confined.bind (.act fun _ => .start _)
    intro
    apply Confined.bind (.await fun _ => .refl)
    intro r
    split
    · exact .pure
    · exact .pure
    · exact onHandshakeSuccess_silent (fun _ => .refl) socket _
    · exact .pure
    · exact .pure

theorem connect_prepares (options : TransportOptions) (qdbFolder : Option Text) :
    Prepares (Socket.connect options qdbFolder) := by
  apply (connect_handshakes options qdbFolder).mono
  · intro c c' h
    cases h with
    | refl => exact .refl
    | start m => exact .log _ rfl
  · exact fun _ h => Or.inr (Or.inr h)

theorem makeOptions_prepares (address : SocketAddress) (type : ConnectionType) (reconnecting : Bool) :
    Prepares (makeOptions address type reconnecting) :=
  .bind prepares_read fun _ => .bind (prepares_note rfl) fun _ => .pure

theorem threadConnectSocket_connects (address : SocketAddress) (type : ConnectionType) :
    Connects (threadConnectSocket address type false) := by
  apply Confined.bind (makeOptions_prepares address type false).connects
  intro opts
  apply Confined.bind prepares_read.connects
  intro qdbDir
  apply Confined.bind (connect_prepares opts qdbDir).connects
  intro r
  split
  · exact .pure
  · exact .bind (.act fun _ => .socket _) fun _ => .pure

/-! ## Pings and queries -/

theorem startPings_looks {addrs pinged : List SocketAddress} (h : ∀ a ∈ addrs, a ∈ pinged) :
    Looks pinged (startPings addrs) := by
  induction addrs with
  | nil => exact .pure
  | cons a rest ih =>
    obtain ⟨ha, hrest⟩ := List.forall_mem_cons.mp h
    apply Confined.bind looks_ask
    intro r
    split
    · exact .bind (ih hrest) fun _ => .pure
    · exact .bind (looks_pinged ha) fun _ => ih hrest

theorem awaitPings_looks (addrs : List SocketAddress) (n : Nat) (sent : List (SocketAddress × PingResult))
    (p : Pings) : Looks [] (awaitPings addrs n sent p) := by
  induction n generalizing sent p with
  | zero => exact .pure
  | succ n ih =>
    apply Confined.bind looks_ask
    intro late
    split
    · exact .pure
    · apply Confined.bind looks_await
      intro r
      split
      · exact .pure
      · exact ih _ _

theorem queryRecords_looks (hostname : Text) (port : UInt16) (v6 allowed : Bool) :
    Looks [] (queryRecords hostname port v6 allowed) := by
  unfold queryRecords
  split
  · exact .pure
  · apply Confined.bind (looks_query _)
    intro
    apply Confined.bind looks_await
    intro r
    split <;> exact .pure

theorem fetchIps_looks (hostname : Text) (port : UInt16) (ipv4 ipv6 : Bool) :
    Looks [] (fetchIps hostname port ipv4 ipv6) :=
  .bind (queryRecords_looks _ _ _ _) fun _ => .bind (queryRecords_looks _ _ _ _) fun _ => .pure

theorem resolveDomain_looks (hostname : Text) (port : Option UInt16) (type : ConnectionType)
    (settings : ConnectionSettings) : Looks [] (resolveDomain hostname port type settings) := by
  unfold resolveDomain
  split
  · exact fetchIps_looks _ _ _ _
  · apply Confined.bind (looks_query _)
    intro
    apply Confined.bind looks_await
    intro r
    split <;> exact fetchIps_looks _ _ _ _

/-! ## The addresses -/

section
variable [Host]

theorem initTlsContext_looks (type : ConnectionType) : Looks [] (initTlsContext type) := by
  unfold initTlsContext
  split
  · exact looks_ask
  · exact .pure

theorem threadEstablishConn_connects (address : SocketAddress) (type : ConnectionType) :
    Connects (threadEstablishConn address type) := by
  apply Confined.bind (prepares_note rfl).connects
  intro
  split
  · exact .pure
  · apply Confined.bind (initTlsContext_looks type).prepares.connects
    intro ready
    split
    · exact .pure
    · exact threadConnectSocket_connects address type

theorem tryCandidates_connects (addrs : List Candidate)
    (errors : List (SocketAddress × ConnectionType × ConnectionError)) :
    Connects (tryCandidates addrs errors) := by
  induction addrs generalizing errors with
  | nil => exact .pure
  | cons a rest ih =>
    apply Confined.bind (threadEstablishConn_connects a.1 a.2)
    intro r
    split
    · exact ih _
    · exact .bind (.act fun _ => .data _ (Or.inr rfl)) fun _ => .pure

theorem threadFinalConnect_connects (addrs : List Candidate) : Connects (threadFinalConnect addrs) :=
  .bind (.assert (Or.inr (Or.inl rfl))) fun _ => .bind (setState_prepares rfl).connects fun _ =>
    .bind prepares_read.connects fun _ => tryCandidates_connects _ _

theorem threadPingCandidates_connects (addrs : List SocketAddress) : Connects (threadPingCandidates addrs) :=
  .bind (setState_prepares rfl).connects fun _ => .bind (startPings_looks fun _ => id).prepares.connects fun _ =>
    .bind (awaitPings_looks _ _ _ _).prepares.connects fun _ => .bind prepares_read.connects fun _ =>
      .bind prepares_ask.connects fun _ => threadFinalConnect_connects _

theorem threadConnectWithIps_connects (addrs : List SocketAddress) (type : ConnectionType) (preferIpv6 : Bool) :
    Connects (threadConnectWithIps addrs type preferIpv6) := by
  unfold threadConnectWithIps
  split
  · exact .pure
  · dsimp only
    split
    · exact threadPingCandidates_connects _
    · exact threadFinalConnect_connects _

/-! ## Destinations -/

theorem threadConnectIp_connects (address : SocketAddress) (type : ConnectionType) :
    Connects (threadConnectIp address type) :=
  .bind prepares_read.connects fun _ => .bind (.act fun c => .target [] c.connectPath) fun _ =>
    .bind (.act fun c => .target c.connectHostname []) fun _ => threadConnectWithIps_connects _ _ _

theorem threadConnectDomain_connects (hostname : Text) (port : Option UInt16) (type : ConnectionType) :
    Connects (threadConnectDomain hostname port type) := by
  apply Confined.bind (setState_prepares rfl).connects
  intro
  apply Confined.bind prepares_read.connects
  intro settings
  apply Confined.bind (resolveDomain_looks hostname port type settings).prepares.connects
  intro addrs
  split
  · exact .pure
  · exact .bind (.act fun c => .target hostname c.connectPath) fun _ => threadConnectWithIps_connects _ _ _

/-- All that an attempt does to the connection, whatever the destination and its outcome. -/
theorem threadConnect_connects (url : Text) : Connects (threadConnect url) := by
  apply Confined.bind (prepares_note rfl).connects
  intro
  split
  · exact .abort (Or.inl rfl)
  · exact .pure
  · apply Confined.bind resetConnectionState_connects
    intro
    apply Confined.bind (.act fun c => .target c.connectHostname _)
    intro
    split
    · exact threadConnectIp_connects _ _
    · exact threadConnectIp_connects _ _
    · exact threadConnectDomain_connects _ _ _
    · exact threadConnectDomain_connects _ _ _

end

end Qunet
