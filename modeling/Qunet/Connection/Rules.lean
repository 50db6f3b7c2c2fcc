import Qunet.Connection.ConnectSteps

/-!
# Rules for the worker's functions

One rule for each function that the branches of `workerThreadLoop` share, for any contract.

* `setState_triple`, `resetConnectionState_triple` : the state and what goes with it;
* `onConnectionError_triple`, `onResult_triple`, `handleIncoming_triple` : errors, from a rule for `onFatalError`;
* `derefSocket_triple`, `note_triple` : single steps;
* `AttemptRule` : an attempt to reconnect, up to the state that follows it;
* `ConnectRule` : an attempt to connect;
* `WakeRule` : what a connected worker does after its `select`;
* `connectedPass_triple`, `reconnectingPass_triple`, `closingPass_triple` : the branches themselves;
* `UserChange`, `userStep_change` : all that the public functions can do; `View`, what they leave alone.
-/

namespace Qunet
open Lib

section
variable {C : Contract Connection Answer Abort} {P Q R S : Connection → Prop}

theorem note_triple {e : Event} {Q : Unit → Connection → Prop} (h : C.Holds false P)
    (hlog : ∀ c, P c → Q () (c.log e)) : Triple C P (note e) Q :=
  .act h hlog

/-- An empty socket is either impossible or tolerated. -/
theorem derefSocket_triple {Q : Socket → Connection → Prop} (h : C.Holds false P)
    (hsome : ∀ c socket, P c → c.socket = some socket → Q socket c)
    (hempty : (∀ c, P c → c.socket ≠ none) ∨ ∀ c, P c → C.aborts .emptySocket c) : Triple C P derefSocket Q := by
  have hread : Triple C P (Task.read (·.socket)) fun socket? c =>
      (∀ socket, socket? = some socket → Q socket c) ∧ (socket? = none → P c ∧ ∀ c, P c → C.aborts .emptySocket c) :=
    .read h fun c hc =>
      ⟨fun socket => hsome c socket hc, fun hnone => ⟨hc, hempty.resolve_left fun h => h c hc hnone⟩⟩
  refine hread.bind fun socket? => ?_
  cases socket? with
  | some socket => exact .pure fun c hc => hc.1 socket rfl
  | none => exact fun c hc => Triple.abort h (hc.2 rfl).2 c (hc.2 rfl).1

/-! ## The state -/

/-- `R` holds between the exchange and the callback, `S` between the callback and the clean up. -/
theorem setState_triple {state : ConnectionState} (hP : C.Holds false P) (hR : C.Holds false R) (hS : C.Holds false S)
    (hsame : ∀ c, P c → c.connState = state → Q (c.exchange state))
    (hexchange : ∀ c, P c → c.connState ≠ state → R (c.exchange state))
    (hcallback : ∀ c, R c → state ≠ .connected → Q (c.log (.callback state)))
    (hconnected : ∀ c, R c → state = .connected → S (c.log (.callback state)))
    (hreset : ∀ c, S c → state = .connected → Q c.resetAttempts) : Triple C P (setState state) fun _ => Q := by
  refine Triple.bind (.update hP (Q := fun prev c => (prev = state → Q c) ∧ (prev ≠ state → R c)) ?_) fun prev => ?_
  · exact fun c hc => ⟨hsame c hc, hexchange c hc⟩
  · split
    · next hprev =>
      have hlog : Triple C R (note (.callback state))
          fun _ c => (state ≠ .connected → Q c) ∧ (state = .connected → S c) :=
        note_triple hR fun c hc => ⟨hcallback c hc, hconnected c hc⟩
      refine (hlog.bind fun _ => ?_).pre fun c hc => hc.2 hprev
      unfold Task.whenever
      split
      · next hstate => exact (Triple.act hS fun c hc => hreset c hc hstate).pre fun c hc => hc.2 hstate
      · next hstate => exact .pure fun c hc => hc.1 hstate
    · next hprev => exact .pure fun c hc => hc.1 (not_not.mp hprev)

/-- When it does not matter whether the callback is called. -/
theorem setState_triple_of_ne {state : ConnectionState} (hstate : state ≠ .connected) (hP : C.Holds false P)
    (hQ : C.Holds false Q) (hexchange : ∀ c, P c → Q (c.exchange state))
    (hcallback : ∀ c, Q c → Q (c.log (.callback state))) : Triple C P (setState state) fun _ => Q :=
  setState_triple hP hQ hQ (fun c hc _ => hexchange c hc) (fun c hc _ => hexchange c hc) (fun c hc _ => hcallback c hc)
    (fun _ _ h => absurd h hstate) fun _ _ h => absurd h hstate

/-- Without a change there is no callback. -/
theorem setState_triple_same {state : ConnectionState} (hP : C.Holds false P) (hstate : ∀ c, P c → c.connState = state)
    (hexchange : ∀ c, P c → Q (c.exchange state)) : Triple C P (setState state) fun _ => Q :=
  have hnever : C.Holds false fun _ => False := ⟨fun _ h => h.elim, fun _ _ h _ => h⟩
  setState_triple hP hnever hnever (fun c hc _ => hexchange c hc) (fun c hc hne => hne (hstate c hc))
    (fun _ h _ => h.elim) (fun _ h _ => h) fun _ h _ => h.elim

/-- `P` holds until the socket is reset. -/
theorem resetConnectionState_triple (hP : C.Holds false P) (hdata : ∀ c, P c → P { c with data := {} })
    (hrequest : ∀ c, P c → P { c with disconnectReq := false }) (hsocket : ∀ c, P c → Q { c with socket := none }) :
    Triple C P resetConnectionState fun _ => Q :=
  .bind (Q := fun _ => P) (.act hP hdata) fun _ => .bind (Q := fun _ => P) (.act hP hrequest) fun _ => .act hP hsocket

/-! ## Errors -/

theorem onConnectionError_triple {e : ConnectionError} (hfatal : Triple C P (onFatalError e) fun _ => Q)
    (hP : C.Holds false P) (herror : ∀ c, P c → Q { c with lastError := e }) :
    Triple C P (onConnectionError e) fun _ => Q := by
  unfold onConnectionError
  split
  · exact hfatal
  · exact .act hP herror

theorem onResult_triple {r : Except TransportError Unit} (hfatal : ∀ e, Triple C P (onFatalError e) fun _ => Q)
    (hP : C.Holds false P) (herror : ∀ c e, P c → Q { c with lastError := e }) (hok : ∀ c, P c → Q c) :
    Triple C P (onResult r) fun _ => Q := by
  cases r with
  | error e => exact onConnectionError_triple (hfatal _) hP fun c hc => herror c _ hc
  | ok => exact .pure hok

theorem handleIncoming_triple {m : QunetMessage} (hfatal : ∀ e, Triple C P (onFatalError e) fun _ => Q)
    (hP : C.Holds false P) (hdata : ∀ c bytes, P c → Q (c.log (.dataCallback bytes))) (hok : ∀ c, P c → Q c) :
    Triple C P (threadHandleIncomingMessage m) fun _ => Q := by
  unfold threadHandleIncomingMessage
  split
  · split
    · exact .pure hok
    · exact note_triple hP fun c hc => hdata c _ hc
  · exact hfatal _
  · exact .pure hok

/-! ## Waiting -/

theorem recvRequest_triple {Q : Text → Connection → Prop} (h : C.Holds true P)
    (hrecv : ∀ c url chan, P c → c.connectChan.recv = some (url, chan) →
      Q url ({ c with connectChan := chan }.log (.dequeued url))) : Triple C P recvRequest Q := by
  refine .step h (R := Q) (fun r c url c' hc _ hstep => ?_) fun _ _ hc => hc
  split at hstep
  · obtain ⟨p, hp, hq⟩ := Option.map_eq_some_iff.mp hstep
    cases hq
    exact hrecv c p.1 p.2 hc hp
  · cases hstep

/-- `P` holds until the waiter is registered, and `R` from then on. -/
theorem awaitWake_triple {Q : Wake → Connection → Prop} (hP : C.Holds false P) (hR : C.Holds true R)
    (hregister : ∀ c, P c → R (disconnectWaiter.register c))
    (hfirst : ∀ r c wake c', P c → wakeReady r c = some (wake, c') → Q wake (c'.log .selected))
    (hready : ∀ r c wake c', R c → C.admits true c r → wakeReady r c = some (wake, c') →
      Q wake ((disconnectWaiter.drop c').log .selected)) : Triple C P awaitWake Q := by
  refine .step hP (R := fun wake? c => (∀ wake, wake? = some wake → Q wake c) ∧ (wake? = none → R c))
    (fun r c wake? c' hc _ hstep => ?_) fun wake? => ?_
  · split at hstep
    · cases hstep
      exact ⟨fun _ h => (by cases h), fun _ => hregister c hc⟩
    · obtain ⟨p, hp, hq⟩ := Option.map_eq_some_iff.mp hstep
      cases hq
      exact ⟨fun _ h => (by cases h; exact hfirst _ c p.1 p.2 hc hp), fun h => (by cases h)⟩
    · obtain ⟨p, hp, hq⟩ := Option.map_eq_some_iff.mp hstep
      cases hq
      exact ⟨fun _ h => (by cases h; exact hfirst _ c p.1 p.2 hc hp), fun h => (by cases h)⟩
    · cases hstep
  · cases wake? with
    | some wake => exact .pure fun c hc => hc.1 wake rfl
    | none =>
      refine Triple.pre ?_ fun c hc => hc.2 rfl
      refine .step hR (R := Q) (fun r c wake c' hc hr hstep => ?_) fun _ _ hc => hc
      obtain ⟨p, hp, hq⟩ := Option.map_eq_some_iff.mp hstep
      cases hq
      exact hready r c p.1 p.2 hc hr hp

end

/-! ## Attempts to reconnect -/

/-- What an attempt to reconnect needs. `P` holds while it is made, `D` from the moment when the previous socket is read
until its id is presented, `M` when the new socket has taken over from it, and `S` when it is installed. -/
structure AttemptRule (C : Contract Connection Answer Abort) (P : Connection → Prop) (D M : Socket → Connection → Prop)
    (S : Connection → Prop) : Prop where
  runs : C.Holds false P
  waits : C.Holds true P
  moved : ∀ c, P c → C.aborts .movedTransport c
  empty : (∀ c, P c → c.socket ≠ none) ∨ ∀ c, P c → C.aborts .emptySocket c
  stored : (∀ c, P c → c.data.address ≠ none ∧ c.data.connType ≠ .unknown) ∨ ∀ c, P c → C.aborts .noStoredAddress c
  options : ∀ c opts, P c → P (c.log (.options opts))
  start : ∀ c m, P c → P (c.log (.handshake (.handshakeStart m)))
  holds_read : ∀ s, C.Holds false (D s)
  read : ∀ c s, P c → c.socket = some s → D s c
  present : ∀ c s, D s c → P (c.log (.handshake (.clientReconnect ⟨s.transport.connectionId⟩)))
  holds_takeOver : ∀ s, C.Holds false (M s)
  takeOver : ∀ c older (s : Socket), P c → c.socket = some older →
    M { s with transport := older.transport }
      { c with socket := some { older with transport := older.transport.movedFrom } }
  install : ∀ c s, M s c → S { c with socket := some s }
  fresh : ∀ c s, P c → S { c with socket := some s }
  holds_installed : C.Holds false S
  stateReset : ∀ c, S c → S (c.log .stateReset)

namespace AttemptRule
variable {C : Contract Connection Answer Abort} {P S : Connection → Prop} {D M : Socket → Connection → Prop}

/-- What is known of a result. -/
def Outcome {ε α : Type} (P : Connection → Prop) (S : α → Connection → Prop) (r : Except ε α) (c : Connection) : Prop :=
  (∀ a, r = .ok a → S a c) ∧ ∀ e, r = .error e → P c

theorem outcome_error {ε α : Type} {S : α → Connection → Prop} {e : ε} :
    Triple C P (pure (.error e) : Worker (Except ε α)) (Outcome P S) :=
  .pure fun _ hc => ⟨fun _ h => (by cases h), fun _ _ => hc⟩

theorem outcome_ok {ε α : Type} {S : α → Connection → Prop} {a : α} :
    Triple C (S a) (pure (.ok a) : Worker (Except ε α)) (Outcome P S) :=
  .pure fun _ hc => ⟨fun _ h => (by cases h; exact hc), fun _ h => (by cases h)⟩

variable (rule : AttemptRule C P D M S)
include rule

theorem createSocket (options : TransportOptions) : Triple C P (Socket.createSocket options) fun _ => P :=
  (createSocket_silent (A := fun c c' => c' = c) (fun _ => rfl) options).triple (fun _ _ hc h => h ▸ hc)
    (fun _ c hwhy hc => hwhy ▸ rule.moved c hc) rule.runs rule.waits

theorem onReconnectSuccess (socket : Socket) : Triple C P socket.onReconnectSuccess M := by
  have htake : Triple C P (Task.update fun c =>
      (c.socket, { c with socket := c.socket.map fun s => { s with transport := s.transport.movedFrom } }))
      fun older? c => (∀ older, older? = some older → M { socket with transport := older.transport } c) ∧
        (older? = none → P c ∧ ∀ c, P c → C.aborts .emptySocket c) := by
    refine .update rule.runs fun c hc => ⟨fun older (hs : c.socket = _) => ?_, fun (hnone : c.socket = _) => ?_⟩
    · have hmove := rule.takeOver c older socket hc hs
      dsimp only
      rw [hs]
      exact hmove
    · have hsame : { c with socket := c.socket.map fun s => { s with transport := s.transport.movedFrom } } = c := by
        rw [hnone, Option.map_none, ← hnone]
      exact ⟨(congrArg P hsame).mpr hc, rule.empty.resolve_left fun h => h c hc hnone⟩
  refine htake.bind fun older? => ?_
  cases older? with
  | some older => exact .pure fun c hc => hc.1 older rfl
  | none => exact fun c hc => Triple.abort rule.runs (hc.2 rfl).2 c (hc.2 rfl).1

theorem reconnect (options : TransportOptions) : Triple C P (Socket.reconnect options) (Outcome P M) := by
  refine (rule.createSocket options).bind fun r => ?_
  split
  · exact outcome_error
  · next socket _ =>
    refine (derefSocket_triple rule.runs rule.read rule.empty).bind fun prev => ?_
    refine (note_triple (Q := fun _ => P) (rule.holds_read prev) fun c hc => rule.present c prev hc).bind fun _ => ?_
    refine (Triple.await (Q := fun _ => P) rule.waits fun _ _ _ hc _ => hc).bind fun r => ?_
    split
    · exact outcome_error
    · exact outcome_error
    · exact (rule.onReconnectSuccess socket).bind fun s => outcome_ok
    · exact outcome_error
    · exact outcome_error

theorem connect (options : TransportOptions) (qdbFolder : Option Text) :
    Triple C P (Socket.connect options qdbFolder) fun _ => P := by
  refine (connect_handshakes options qdbFolder).triple ?_ (fun _ c hwhy hc => hwhy ▸ rule.moved c hc) rule.runs
    rule.waits
  intro c c' hc hstep
  cases hstep with
  | refl => exact hc
  | start m => exact rule.start c m hc

theorem threadConnectSocket (address : SocketAddress) (type : ConnectionType) (reconnect : Bool) :
    Triple C P (threadConnectSocket address type reconnect) (Outcome P fun _ => S) := by
  have hoptions : Triple C P (makeOptions address type reconnect) fun _ => P :=
    (Triple.read (Q := fun _ => P) rule.runs fun _ hc => hc).bind fun _ =>
      (note_triple (Q := fun _ => P) rule.runs fun c hc => rule.options c _ hc).bind fun _ => .pure fun _ hc => hc
  refine hoptions.bind fun opts => ?_
  refine (Triple.read (Q := fun _ => P) rule.runs fun _ hc => hc).bind fun qdbDir => ?_
  cases reconnect with
  | true =>
    have hopen : Triple C P (openSocket opts qdbDir true) (Outcome P M) :=
      (derefSocket_triple (Q := fun _ => P) rule.runs (fun _ _ hc _ => hc) rule.empty).bind fun _ => rule.reconnect opts
    refine hopen.bind fun r => ?_
    split
    · exact .pure fun _ hc => ⟨fun _ h => (by cases h), fun _ _ => hc.2 _ rfl⟩
    · next s =>
      refine ((Triple.act (Q := fun _ => S) (rule.holds_takeOver s) fun c hc => rule.install c s hc).bind fun _ =>
        outcome_ok (S := fun _ => S)).pre fun c hc => hc.1 _ rfl
  | false =>
    refine (rule.connect opts qdbDir).bind fun r => ?_
    split
    · exact outcome_error
    · next s => exact (Triple.act (Q := fun _ => S) rule.runs fun c hc => rule.fresh c s hc).bind fun _ =>
        outcome_ok (S := fun _ => S)

theorem threadTryReconnect {P₀ : Connection → Prop} {stateless : Bool} (hP₀ : C.Holds false P₀)
    (hbegin : ∀ c, P₀ c → P (c.log (.tryReconnect stateless c.socket))) :
    Triple C P₀ (threadTryReconnect stateless) (Outcome P fun _ => S) := by
  refine (Triple.act (Q := fun _ => P) hP₀ hbegin).bind fun _ => ?_
  have hread : Triple C P (Task.read (·.data)) fun data c => P c ∧
      (data.address = none ∨ data.connType = .unknown → ∀ c, P c → C.aborts .noStoredAddress c) :=
    .read rule.runs fun c hc => ⟨hc, fun hmissing => rule.stored.resolve_left fun h => by
      rcases hmissing with hnone | hunknown
      · exact (h c hc).1 hnone
      · exact (h c hc).2 hunknown⟩
  refine hread.bind fun data => ?_
  split
  · next hnone => exact fun c hc => Triple.abort rule.runs (hc.2 (Or.inl hnone)) c hc.1
  · next address _ =>
    by_cases hknown : data.connType ≠ .unknown
    · rw [Task.assert, if_pos hknown]
      refine ((rule.threadConnectSocket address data.connType (!stateless)).pre fun _ hc => hc.1).bind fun r => ?_
      split
      · exact .pure fun _ hc => ⟨fun _ h => (by cases h), fun _ _ => hc.2 _ rfl⟩
      · have hreset : Triple C S (Task.whenever stateless (note .stateReset)) fun _ => S :=
          .whenever (fun _ => note_triple rule.holds_installed rule.stateReset) fun _ _ hc => hc
        exact (hreset.bind fun _ => outcome_ok (S := fun _ => S)).pre fun _ hc => hc.1 _ rfl
    · rw [Task.assert, if_neg hknown]
      exact fun c hc => Triple.abort rule.runs (hc.2 (Or.inr (not_not.mp hknown))) c hc.1

/-- The outcome of an attempt; `E` holds after a failure, `F` at the end. -/
theorem reconnectFut {P₀ F : Connection → Prop} {E : ConnectionError → Connection → Prop} {stateless : Bool}
    (hP₀ : C.Holds false P₀) (hbegin : ∀ c, P₀ c → P (c.log (.tryReconnect stateless c.socket)))
    (hconnected : Triple C S (setState .connected) fun _ => F)
    (hfailed : ∀ c e, P c → E e (c.log (.reconnectFailed stateless e))) (hE : ∀ e, C.Holds false (E e))
    (hflag : ∀ c e, E e c → isReconnectFailed e → stateless = false →
      F { c with data := { c.data with tryStatelessReconnect := true } })
    (hsleep : ∀ e, (isReconnectFailed e && !stateless) = false → Triple C (E e) (.await Answer.ready?) fun _ => F) :
    Triple C P₀ (reconnectFut stateless) fun _ => F := by
  refine (rule.threadTryReconnect hP₀ hbegin).bind fun r => ?_
  split
  · exact hconnected.pre fun _ hc => hc.1 _ rfl
  · next e =>
    have hnote : Triple C P (note (.reconnectFailed stateless e)) fun _ => E e :=
      note_triple rule.runs fun c hc => hfailed c e hc
    refine (hnote.bind fun _ => ?_).pre fun _ hc => hc.2 _ rfl
    split
    · next hretry =>
      simp only [Bool.and_eq_true, Bool.not_eq_true'] at hretry
      exact .act (hE e) fun c hc => hflag c e hc hretry.1 hretry.2
    · next hretry => exact hsleep e (by simpa using hretry)

end AttemptRule

/-! ## Attempts to connect -/

/-- What an attempt to connect needs. `P` holds until a socket is installed, `S` from then on, and `T` when its address
is stored. -/
structure ConnectRule (C : Contract Connection Answer Abort) (P S T : Connection → Prop) : Prop where
  runs : C.Holds false P
  waits : C.Holds true P
  aborts : ∀ c why, P c → why.connecting → C.aborts why c
  prepare : ∀ c c', P c → PrepareStep c c' → P c'
  resetData : ∀ c, P c → P { c with data := {} }
  resetRequest : ∀ c, P c → P { c with disconnectReq := false }
  resetSocket : ∀ c, P c → P { c with socket := none }
  install : ∀ c s, P c → S { c with socket := some s }
  installed : C.Holds false S
  store : ∀ c address type, S c → type ≠ .unknown →
    T { c with data := { c.data with address := some address, connType := type } }

namespace ConnectRule
open AttemptRule (Outcome outcome_error outcome_ok)
variable {C : Contract Connection Answer Abort} {P S T : Connection → Prop} (rule : ConnectRule C P S T)
include rule

theorem prepares {α : Type} {t : Worker α} (h : Prepares t) : Triple C P t fun _ => P :=
  h.triple rule.prepare (fun why c hwhy hc => rule.aborts c why hc hwhy) rule.runs rule.waits

theorem threadConnectSocket (address : SocketAddress) (type : ConnectionType) :
    Triple C P (threadConnectSocket address type false) (Outcome P fun _ => S) := by
  refine (rule.prepares (makeOptions_prepares address type false)).bind fun opts => ?_
  refine (rule.prepares prepares_read).bind fun qdbDir => ?_
  refine (rule.prepares (connect_prepares opts qdbDir)).bind fun r => ?_
  split
  · exact outcome_error
  · next socket =>
    exact (Triple.act (Q := fun _ => S) rule.runs fun c hc => rule.install c socket hc).bind fun _ =>
      outcome_ok (S := fun _ => S)

variable [Host]

theorem threadEstablishConn (address : SocketAddress) (type : ConnectionType) :
    Triple C P (threadEstablishConn address type) (Outcome P fun _ => S) := by
  refine (rule.prepares (prepares_note rfl)).bind fun _ => ?_
  split
  · exact outcome_error
  · refine (rule.prepares (initTlsContext_looks type).prepares).bind fun ready => ?_
    split
    · exact outcome_error
    · exact rule.threadConnectSocket address type

theorem tryCandidates (addrs : List Candidate) (errors : List (SocketAddress × ConnectionType × ConnectionError)) :
    Triple C P (tryCandidates addrs errors) (Outcome P fun _ => T) := by
  induction addrs generalizing errors with
  | nil => exact outcome_error
  | cons a rest ih =>
    refine (rule.threadEstablishConn a.1 a.2).bind fun r => ?_
    split
    · exact (ih _).pre fun _ hc => hc.2 _ rfl
    · have hstore : Triple C S (.act fun c => { c with data := { c.data with address := some a.1, connType := a.2 } })
          fun _ => T := .act rule.installed fun c hc => rule.store c a.1 a.2 hc a.2.property
      exact (hstore.bind fun _ => outcome_ok (S := fun _ => T)).pre fun _ hc => hc.1 _ rfl

theorem threadFinalConnect (addrs : List Candidate) :
    Triple C P (threadFinalConnect addrs) (Outcome P fun _ => T) :=
  (rule.prepares (.assert (Or.inr (Or.inl rfl)))).bind fun _ => (rule.prepares (setState_prepares rfl)).bind fun _ =>
    (rule.prepares prepares_read).bind fun _ => rule.tryCandidates _ _

theorem threadPingCandidates (addrs : List SocketAddress) :
    Triple C P (threadPingCandidates addrs) (Outcome P fun _ => T) :=
  (rule.prepares (setState_prepares rfl)).bind fun _ =>
    (rule.prepares (startPings_looks fun _ => id).prepares).bind fun _ =>
      (rule.prepares (awaitPings_looks _ _ _ _).prepares).bind fun _ => (rule.prepares prepares_read).bind fun _ =>
        (rule.prepares prepares_ask).bind fun _ => rule.threadFinalConnect _

theorem threadConnectWithIps (addrs : List SocketAddress) (type : ConnectionType) (preferIpv6 : Bool) :
    Triple C P (threadConnectWithIps addrs type preferIpv6) (Outcome P fun _ => T) := by
  unfold Qunet.threadConnectWithIps
  split
  · exact outcome_error
  · dsimp only
    split
    · exact rule.threadPingCandidates _
    · exact rule.threadFinalConnect _

theorem threadConnectIp (address : SocketAddress) (type : ConnectionType) :
    Triple C P (threadConnectIp address type) (Outcome P fun _ => T) :=
  (rule.prepares prepares_read).bind fun _ =>
    (rule.prepares (.act fun c => .target [] c.connectPath)).bind fun _ =>
      (rule.prepares (.act fun c => .target c.connectHostname [])).bind fun _ => rule.threadConnectWithIps _ _ _

theorem threadConnectDomain (hostname : Text) (port : Option UInt16) (type : ConnectionType) :
    Triple C P (threadConnectDomain hostname port type) (Outcome P fun _ => T) := by
  refine (rule.prepares (setState_prepares rfl)).bind fun _ => ?_
  refine (rule.prepares prepares_read).bind fun settings => ?_
  refine (rule.prepares (resolveDomain_looks hostname port type settings).prepares).bind fun addrs => ?_
  split
  · exact outcome_error
  · refine (rule.prepares (.act fun c => .target hostname c.connectPath)).bind fun _ => ?_
    exact rule.threadConnectWithIps _ _ _

/-- An attempt that succeeds leaves a socket and an address, and one that fails leaves everything as it was. -/
theorem threadConnect (url : Text) : Triple C P (threadConnect url) (Outcome P fun _ => T) := by
  refine (rule.prepares (prepares_note rfl)).bind fun _ => ?_
  split
  · exact .abort rule.runs fun c hc => rule.aborts c _ hc (Or.inl rfl)
  · exact outcome_error
  · refine (resetConnectionState_triple rule.runs rule.resetData rule.resetRequest rule.resetSocket).bind fun _ => ?_
    refine (rule.prepares (.act fun c => .target c.connectHostname _)).bind fun _ => ?_
    split
    · exact rule.threadConnectIp _ _
    · exact rule.threadConnectIp _ _
    · exact rule.threadConnectDomain _ _ _
    · exact rule.threadConnectDomain _ _ _

end ConnectRule

/-! ## Passes -/

/-- What the events of a connected worker need. `P` holds until one of them changes the state, and `Q` at the end. -/
structure WakeRule (C : Contract Connection Answer Abort) (P Q : Connection → Prop) : Prop where
  runs : C.Holds false P
  waits : C.Holds true P
  empty : (∀ c, P c → c.socket ≠ none) ∨ ∀ c, P c → C.aborts .emptySocket c
  closing : Triple C P (setState .closing) fun _ => Q
  fatal : ∀ e, Triple C P (onFatalError e) fun _ => Q
  lastError : ∀ c e, P c → Q { c with lastError := e }
  dataCallback : ∀ c data, P c → Q (c.log (.dataCallback data))
  weaken : ∀ c, P c → Q c

namespace WakeRule
variable {C : Contract Connection Answer Abort} {P Q : Connection → Prop} (rule : WakeRule C P Q)
include rule

theorem derefSocket : Triple C P derefSocket fun _ => P :=
  derefSocket_triple rule.runs (fun _ _ hc _ => hc) rule.empty

theorem await {α : Type} {f : Answer → Option α} : Triple C P (.await f) fun _ => P :=
  .await rule.waits fun _ _ _ hc _ => hc

/-- A message is sent, or a timer handled. -/
theorem result : Triple C P (do onResult (← .await Answer.result?)) fun _ => Q :=
  rule.await.bind fun _ => onResult_triple rule.fatal rule.runs rule.lastError rule.weaken

theorem onWake {wake : Wake} (hmessage : ∀ m, wake = .message m → Triple C P (note (.handed m)) fun _ => P) :
    Triple C P (onWake wake) fun _ => Q := by
  cases wake with
  | message m => exact rule.derefSocket.bind fun _ => (hmessage m rfl).bind fun _ => rule.result
  | expiry => exact rule.derefSocket.bind fun _ => rule.result
  | disconnect => exact rule.closing
  | incoming r =>
    cases r with
    | error e => exact onConnectionError_triple (rule.fatal _) rule.runs fun c hc => rule.lastError c _ hc
    | ok m => exact handleIncoming_triple rule.fatal rule.runs rule.dataCallback rule.weaken
  | woken => exact .pure rule.weaken

end WakeRule

section
variable {C : Contract Connection Answer Abort} {J G P Q : Connection → Prop}

theorem debounce_triple (hC : C.Tolerates disconnectWaiter) (hP : ∀ suspends, C.Holds suspends P)
    (hlog : ∀ c, P c → P (c.log .debounced)) : Triple C P debounce fun _ => P :=
  (Triple.race_await hC hP).bind fun _ => note_triple (hP false) hlog

theorem loadDisconnectReq_triple (h : C.Holds false J)
    (hrequested : ∀ c, J c → c.disconnectReq = true → G (c.log (.loaded true)))
    (hcontinue : ∀ c, J c → c.disconnectReq = false → P (c.log (.loaded false))) :
    Triple C J loadDisconnectReq fun requested c => if requested then G c else P c := by
  refine .update h fun c hc => ?_
  cases hflag : c.disconnectReq with
  | true => simpa [hflag] using hrequested c hc hflag
  | false => simpa [hflag] using hcontinue c hc hflag

/-- `P` holds once the request is known not to be there, and `R` while the worker waits. -/
theorem connectedPass_triple {R : Connection → Prop} {W : Wake → Connection → Prop}
    (hload : Triple C J loadDisconnectReq fun requested c => if requested then G c else P c)
    (hclosing : Triple C G (setState .closing) fun _ => Q) (hrun : C.Holds false P)
    (hempty : (∀ c, P c → c.socket ≠ none) ∨ ∀ c, P c → C.aborts .emptySocket c) (hwait : C.Holds true R)
    (hregister : ∀ c, P c → R (disconnectWaiter.register c))
    (hfirst : ∀ r c wake c', P c → wakeReady r c = some (wake, c') → W wake (c'.log .selected))
    (hready : ∀ r c wake c', R c → C.admits true c r → wakeReady r c = some (wake, c') →
      W wake ((disconnectWaiter.drop c').log .selected))
    (hwake : ∀ wake, Triple C (W wake) (onWake wake) fun _ => Q) : Triple C J connectedPass fun _ => Q := by
  have hderef : Triple C P derefSocket fun _ => P := derefSocket_triple hrun (fun _ _ hc _ => hc) hempty
  refine hload.bind fun requested => ?_
  cases requested with
  | true => exact hclosing
  | false =>
    refine hderef.bind fun _ => hderef.bind fun _ => ?_
    exact (awaitWake_triple hrun hwait hregister hfirst hready).bind hwake

/-- `N` holds once the attempt is counted, `R` when it is over, and `Q` at the end. -/
theorem reconnectingPass_triple {N : UInt16 → Bool → Connection → Prop} {R : Connection → Prop}
    (hload : Triple C J loadDisconnectReq fun requested c => if requested then G c else P c)
    (hcancel : Triple C G threadCancelConnection fun _ => Q)
    (hnext : Triple C P nextAttempt fun a => N a.1 a.2) (hgiveUp : ∀ attempt stateless c, N attempt stateless c → G c)
    (hdebounce : ∀ stateless, Triple C (N 0 stateless) debounce fun _ => N 0 stateless)
    (hrun : ∀ attempt stateless, C.Holds false (N attempt stateless))
    (hregister : ∀ attempt stateless c, N attempt stateless c → N attempt stateless (disconnectWaiter.register c))
    (hrace : ∀ attempt stateless, attempt.toNat < 7 →
      Triple C (N attempt stateless) ((reconnectFut stateless).race disconnectWaiter true)
        fun r c => r.elim (G c) fun _ => R c)
    (hcancelled : ∀ c, Q c → R c) (hselected : Triple C R (note .selected) fun _ => Q) :
    Triple C J reconnectingPass fun _ => Q := by
  refine hload.bind fun requested => ?_
  cases requested with
  | true => exact hcancel
  | false =>
    refine hnext.bind fun next => ?_
    obtain ⟨attempt, stateless⟩ := next
    dsimp only
    split
    · exact hcancel.pre (hgiveUp attempt stateless)
    · next hattempt =>
      have hlt : attempt.toNat < 7 := by simpa [UInt16.le_iff_toNat_le] using hattempt
      have hwaited : Triple C (N attempt stateless) (.whenever (attempt = 0) debounce)
          fun _ => N attempt stateless := by
        refine .whenever (fun hzero => ?_) fun _ _ hc => hc
        subst hzero
        exact hdebounce stateless
      refine hwaited.bind fun _ => ?_
      refine Triple.bind (Q := fun _ => N attempt stateless)
        (.act (hrun attempt stateless) (hregister attempt stateless)) fun _ => ?_
      refine (hrace attempt stateless hlt).bind fun r => ?_
      have hfinish : Triple C (fun c => r.elim (G c) fun _ => R c) (cancelIfNone r) fun _ => R := by
        cases r with
        | none => exact hcancel.post fun _ => hcancelled
        | some a => exact .pure fun _ hc => hc
      exact hfinish.bind fun _ => hselected

/-- `P` holds until the state changes. -/
theorem closingPass_triple (hrun : C.Holds false P) (hwait : C.Holds true P)
    (hempty : (∀ c, P c → c.socket ≠ none) ∨ ∀ c, P c → C.aborts .emptySocket c) (hkeep : ∀ c, P c → Q c)
    (hfatal : ∀ e, Triple C P (onFatalError e) fun _ => Q)
    (hcancel : Triple C P threadCancelConnection fun _ => Q) : Triple C P closingPass fun _ => Q := by
  have hderef : Triple C P derefSocket fun _ => P := derefSocket_triple hrun (fun _ _ hc _ => hc) hempty
  have hresult : Triple C P (.await Answer.result?) fun _ => P := .await hwait fun _ _ _ hc _ => hc
  have hready : Triple C P (.await Answer.ready?) fun _ => P := .await hwait fun _ _ _ hc _ => hc
  refine Triple.bind (Q := fun _ => P) (.read hrun fun _ hc => hc) fun socket => ?_
  split
  · exact .pure hkeep
  · refine hderef.bind fun _ => hresult.bind fun _ => hready.bind fun _ => hderef.bind fun _ => hresult.bind fun r => ?_
    split
    · exact hfatal _
    · exact hderef.bind fun _ => hready.bind fun _ => hcancel

end

/-! ## The public functions -/

/-- What only the worker changes, unless a connection drop is simulated. -/
structure View where
  connState : ConnectionState
  socket : Option Socket
  data : ConnectionData

def Connection.view (c : Connection) : View := ⟨c.connState, c.socket, c.data⟩

/-- A `select` takes a message, or at most a permit. -/
theorem wakeReady_cases {r : Answer} {c c' : Connection} {wake : Wake} (h : wakeReady r c = some (wake, c')) :
    (∃ m chan, c.msgChan.recv = some (m, chan) ∧ wake = .message m ∧
      c' = { c with msgChan := chan }.log (.received m)) ∨
    ((∀ m, wake ≠ .message m) ∧ (c' = c ∨ c' = { c with taskWakeNotify := false })) := by
  unfold wakeReady at h
  split at h
  · obtain ⟨⟨m, chan⟩, hrecv, hq⟩ := Option.map_eq_some_iff.mp h
    cases hq
    exact Or.inl ⟨m, chan, hrecv, rfl, rfl⟩
  · cases h
    exact Or.inr ⟨by simp, Or.inl rfl⟩
  · split at h
    · cases h
      exact Or.inr ⟨by simp, Or.inl rfl⟩
    · cases h
  · cases h
    exact Or.inr ⟨by simp, Or.inl rfl⟩
  · split at h
    · cases h
      exact Or.inr ⟨by simp, Or.inr rfl⟩
    · cases h
  · cases h

theorem wakeReady_view {r : Answer} {c c' : Connection} {wake : Wake} (h : wakeReady r c = some (wake, c')) :
    c'.view = c.view := by
  obtain ⟨m, chan, -, -, rfl⟩ | ⟨-, rfl | rfl⟩ := wakeReady_cases h <;> rfl

/-! ### Simulated drops -/

/-- `setState` to another state than `Connected`, with nobody in between. -/
def Connection.changeState (state : ConnectionState) (c : Connection) : Connection :=
  if c.connState = state then c.exchange state else (c.exchange state).log (.callback state)

/-- `simulateConnectionDrop` with this answer of the should-reconnect callback. -/
def Connection.dropped (shouldReconnect : Bool) (c : Connection) : Connection :=
  { (if c.connState = .connected ∧ shouldReconnect = true then
      ({ c with lastError := .other .internalError, msgChan := .empty }.log .drained).changeState .reconnecting
    else
      { c with lastError := .other .internalError, data := {}, disconnectReq := false, socket := none }.changeState
        .disconnected) with taskWakeNotify := true }

theorem dropped_connected {c : Connection} (h : c.connState = .connected) :
    c.dropped true =
      { c with connState := .reconnecting, lastError := .other .internalError, msgChan := .empty, taskWakeNotify := true
               history := .callback .reconnecting :: .exchange .connected .reconnecting c.socket :: .drained ::
                 c.history } := by
  simp [Connection.dropped, Connection.changeState, Connection.exchange, Connection.log, h]

theorem dropped_disconnected {b : Bool} {c : Connection} (h : ¬ (c.connState = .connected ∧ b = true)) :
    c.dropped b =
      { c with connState := .disconnected, lastError := .other .internalError, data := {}, disconnectReq := false
               socket := none, taskWakeNotify := true
               history := (if c.connState = .disconnected then [] else [.callback .disconnected]) ++
                 .exchange c.connState .disconnected none :: c.history } := by
  unfold Connection.dropped Connection.changeState
  rw [if_neg h]
  split <;> simp_all [Connection.exchange, Connection.log]

theorem userStep_drop (b : Bool) (c : Connection) :
    userStep (.simulateConnectionDrop b) c = some (c.dropped b) := by
  obtain ⟨state⟩ := c
  cases state <;> cases b <;> rfl

/-! ### Steps -/

/-- A step of a public function, or a drop. -/
inductive UserChange (c : Connection) : UserEvent → Connection → Prop where
  | enter (call : Call) (calls : List Call) : UserChange c (.enter call) { c with calls }
  /-- `m_disconnectReq.store(true)` -/
  | request (calls : List Call) : UserChange c (.enter .disconnect) { c with disconnectReq := true, calls }
  | connectOk {i : Nat} {destination : Text} {chan : Channel 2 Text} (calls : List Call)
      (hcall : c.calls[i]? = some (.connect destination)) (hsend : c.connectChan.trySend destination = some chan) :
      UserChange c (.finish i) ({ c with connectChan := chan, calls }.log (.connectOk destination))
  | accepted {i : Nat} {m : OutgoingMessage} {chan : Channel 512 OutgoingMessage} (calls : List Call)
      (hcall : c.calls[i]? = some (.sendMsgToThread m)) (hsend : c.msgChan.trySend m = some chan) :
      UserChange c (.finish i) ({ c with msgChan := chan, calls }.log (.accepted m))
  /-- The channel is full. -/
  | refused {i : Nat} {call : Call} (calls : List Call) (hcall : c.calls[i]? = some call) (hne : call ≠ .disconnect) :
      UserChange c (.finish i) { c with calls }
  /-- `m_disconnectNotify.notifyAll()` -/
  | disconnected {i : Nat} (calls : List Call) (hcall : c.calls[i]? = some .disconnect) :
      UserChange c (.finish i)
        ({ c with disconnectNotify := c.disconnectNotify.map fun _ => true, calls }.log .disconnectReturned)
  | settings (settings : ConnectionSettings) : UserChange c (.settings settings) { c with settings }
  | drop (b : Bool) : UserChange c (.simulateConnectionDrop b) (c.dropped b)

theorem Call.enter_change (call : Call) (c : Connection) : UserChange c (.enter call) (call.enter c) := by
  cases call with
  | connect destination =>
    dsimp only [enter]
    split
    · exact .enter _ _
    · exact .enter _ c.calls
  | sendMsgToThread m =>
    dsimp only [enter]
    split
    · exact .enter _ _
    · exact .enter _ c.calls
  | disconnect => exact .request _

theorem Call.finish_change {call : Call} {c : Connection} {i : Nat} (hcall : c.calls[i]? = some call) :
    UserChange c (.finish i) (call.finish { c with calls := c.calls.eraseIdx i }) := by
  cases call with
  | connect destination =>
    dsimp only [finish]
    split
    · next chan hsend => exact .connectOk _ hcall hsend
    · exact .refused _ hcall (by simp)
  | sendMsgToThread m =>
    dsimp only [finish]
    split
    · next chan hsend => exact .accepted _ hcall hsend
    · exact .refused _ hcall (by simp)
  | disconnect => exact .disconnected _ hcall

/-- All that a public function can do. -/
theorem userStep_change {e : UserEvent} {c c' : Connection} (h : userStep e c = some c') : UserChange c e c' := by
  cases e with
  | enter call =>
    cases h
    exact call.enter_change c
  | finish i =>
    obtain ⟨call, hcall, rfl⟩ := Option.map_eq_some_iff.mp h
    exact Call.finish_change hcall
  | settings settings =>
    cases h
    exact .settings settings
  | simulateConnectionDrop b =>
    rw [userStep_drop] at h
    cases h
    exact .drop b

/-- No drop is simulated. -/
def UserEvent.NoDrop : UserEvent → Prop
  | .simulateConnectionDrop _ => False
  | _ => True

theorem userStep_view {e : UserEvent} {c c' : Connection} (he : e.NoDrop) (h : userStep e c = some c') :
    c'.view = c.view := by
  cases userStep_change h with
  | drop b => cases he
  | _ => rfl

end Qunet
