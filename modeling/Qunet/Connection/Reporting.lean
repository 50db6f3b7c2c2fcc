import Qunet.Connection.Rules

/-!
# Every connect request is reported

`connectWait` waits for a callback with `Connected` or `Disconnected` after its request was accepted.

* `request` : the last request that the worker took, and whether a callback has reported its end since;
* `Answered` : every request that was processed has been reported exactly if its destination is a URL;
* `threadConnect_report` : an attempt waits, or is over, only when its end has been or will be reported;
* **`processed_reported_iff`** : every run, simulated drops included.
-/

namespace Qunet
open Lib

/-! ## Requests -/

structure Request where
  destination : Text
  reported : Bool := false
  deriving DecidableEq

/-- What `connectWait` waits for. -/
def Event.reports : Event → Bool
  | .callback state => state = .connected || state = .disconnected
  | _ => false

def Event.isProcessed : Event → Bool
  | .processed => true
  | _ => false

theorem eq_processed_cons {history : List Event} (h : history.head?.map Event.isProcessed = some true) :
    ∃ earlier, history = .processed :: earlier := by
  obtain ⟨e, hhead, he⟩ := Option.map_eq_some_iff.mp h
  obtain ⟨earlier, hhistory⟩ := List.head?_eq_some_iff.mp hhead
  cases e <;> first | exact ⟨earlier, hhistory⟩ | cases he

def Request.report (r : Request) : Request := { r with reported := true }

def requestAfter : Event → Option Request → Option Request
  | .dequeued destination, _ => some { destination }
  | e, r => if e.reports then r.map Request.report else r

/-- The last request that the worker took. -/
def request : List Event → Option Request
  | [] => none
  | e :: history => requestAfter e (request history)

theorem requestAfter_connecting {e : Event} (h : e.connecting) (r : Option Request) : requestAfter e r = r := by
  cases e with
  | callback state => cases state <;> first | rfl | cases h
  | _ => first | rfl | cases h

abbrev RequestPred := Option Request → ConnectionState → Prop

namespace RequestPred
variable {url : Text}

/-- The worker has taken the request and not begun to connect. -/
def fresh (url : Text) : RequestPred := fun r state => r = some ⟨url, false⟩ ∧ state = .disconnected

def taken (url : Text) : RequestPred := fun r _ => ∃ reported, r = some ⟨url, reported⟩

/-- The end of the attempt has been reported, or the next change of the state will report it. -/
def pending (url : Text) : RequestPred :=
  fun r state => ∃ reported, r = some ⟨url, reported⟩ ∧ (reported = true ∨ state.intermediate)

def reported (url : Text) : RequestPred := fun r _ => r = some ⟨url, true⟩

/-- What a drop leaves of a predicate. -/
structure Stable (p : RequestPred) : Prop where
  reconnects : ∀ r, p r .connected → p r .reconnecting
  ends : ∀ r state, p r state → state ≠ .disconnected → p (r.map Request.report) .disconnected

theorem stable_any : Stable fun _ _ => True := ⟨fun _ _ => trivial, fun _ _ _ _ => trivial⟩

theorem stable_disconnected : Stable fun _ state => state = .disconnected :=
  ⟨fun _ h => (by cases h), fun _ _ _ _ => rfl⟩

theorem stable_fresh : (fresh url).Stable := ⟨fun _ h => (by cases h.2), fun _ _ h hstate => absurd h.2 hstate⟩

theorem stable_taken : (taken url).Stable := by
  refine ⟨fun _ h => h, ?_⟩
  rintro _ state ⟨reported, rfl⟩ -
  exact ⟨true, rfl⟩

theorem stable_pending : (pending url).Stable := by
  refine ⟨?_, ?_⟩
  · rintro _ ⟨reported, rfl, hreported | hstate⟩
    · exact ⟨reported, rfl, Or.inl hreported⟩
    · cases hstate
  · rintro _ state ⟨reported, rfl, -⟩ -
    exact ⟨true, rfl, Or.inl rfl⟩

theorem stable_reported : (RequestPred.reported url).Stable := by
  refine ⟨fun _ h => h, ?_⟩
  rintro _ state rfl -
  rfl

theorem reported.pending {r : Option Request} {state : ConnectionState} (h : reported url r state) :
    pending url r state := ⟨true, h, Or.inl rfl⟩

theorem fresh.taken {r : Option Request} {state : ConnectionState} (h : fresh url r state) : taken url r state :=
  ⟨false, h.1⟩

theorem pending.taken {r : Option Request} {state : ConnectionState} (h : pending url r state) : taken url r state :=
  h.imp fun _ h => h.1

/-- A state that is not one of an attempt. -/
theorem pending.reported {r : Option Request} {state : ConnectionState} (h : pending url r state)
    (hstate : ¬ state.intermediate) : reported url r state := by
  obtain ⟨reported, rfl, rfl | hinter⟩ := h
  · rfl
  · exact absurd hinter hstate

end RequestPred

section
variable [Host]

/-- The worker can make an attempt for this destination. -/
def IsUrl (destination : Text) : Prop := ∃ parser, UrlParser.parse destination = some (.ok parser)

/-- All requests of this history that were processed. -/
def Answered (history : List Event) : Prop :=
  ∀ later earlier, history = later ++ .processed :: earlier →
    ∃ r, request earlier = some r ∧ (r.reported = true ↔ IsUrl r.destination)

theorem Answered.log {history : List Event} {e : Event} (h : Answered history) (he : e ≠ .processed) :
    Answered (e :: history) := by
  intro later earlier heq
  cases later with
  | nil => exact absurd (List.cons.inj heq).1 he
  | cons e' later => exact h later earlier (List.cons.inj heq).2

theorem Answered.processed {history : List Event} {r : Request} (h : Answered history) (hr : request history = some r)
    (hreported : r.reported = true ↔ IsUrl r.destination) : Answered (.processed :: history) := by
  intro later earlier heq
  cases later with
  | nil =>
    obtain rfl := (List.cons.inj heq).2
    exact ⟨r, hr, hreported⟩
  | cons e' later => exact h later earlier (List.cons.inj heq).2

/-! ## The contract -/

/-- The predicate on a connection; all earlier requests have been answered. -/
def Requests (p : RequestPred) (c : Connection) : Prop := Answered c.history ∧ p (request c.history) c.connState

def reportContract : Contract Connection Answer Abort where
  rely _ c c' := (∃ e, userStep e c = some c') ∨ c' = disconnectWaiter.register c ∨ c' = disconnectWaiter.drop c
  admits _ _ _ := True
  inv _ c := Answered c.history
  aborts _ c := Answered c.history

theorem reportContract_tolerates : reportContract.Tolerates disconnectWaiter where
  rely _ _ h := h
  inv _ h := h
  admits _ _ _ := trivial
  register _ := Or.inr (Or.inl rfl)
  drop _ := Or.inr (Or.inr rfl)

theorem requests_userStep {p : RequestPred} (hp : p.Stable) {e : UserEvent} {c c' : Connection} (hc : Requests p c)
    (h : userStep e c = some c') : Requests p c' := by
  obtain ⟨hanswered, hrequest⟩ := hc
  cases userStep_change h with
  | connectOk calls hcall hsend => exact ⟨hanswered.log (by simp), hrequest⟩
  | accepted calls hcall hsend => exact ⟨hanswered.log (by simp), hrequest⟩
  | disconnected calls hcall => exact ⟨hanswered.log (by simp), hrequest⟩
  | drop b =>
    by_cases hdrop : c.connState = .connected ∧ b = true
    · obtain ⟨hconn, rfl⟩ := hdrop
      rw [dropped_connected hconn]
      refine ⟨((hanswered.log ?_).log ?_).log ?_, hp.reconnects _ (hconn ▸ hrequest)⟩ <;> simp
    · rw [dropped_disconnected hdrop]
      have hexchange : Answered (.exchange c.connState .disconnected none :: c.history) := hanswered.log (by simp)
      unfold Requests
      dsimp only
      split
      · next hstate => exact ⟨hexchange, hstate ▸ hrequest⟩
      · next hstate => exact ⟨hexchange.log (by simp), hp.ends _ _ hrequest hstate⟩
  | _ => exact ⟨hanswered, hrequest⟩

theorem RequestPred.Stable.holds {p : RequestPred} (hp : p.Stable) (suspends : Bool) :
    reportContract.Holds suspends (Requests p) := by
  refine ⟨fun c hc => hc.1, ?_⟩
  rintro c c' hc (⟨e, hstep⟩ | rfl | rfl)
  · exact requests_userStep hp hc hstep
  · exact hc
  · exact hc

theorem Requests.log {p : RequestPred} {c : Connection} {e : Event} (hc : Requests p c) (he : e ≠ .processed)
    (hsame : ∀ r, requestAfter e r = r) : Requests p (c.log e) :=
  ⟨hc.1.log he, (congrArg (p · c.connState) (hsame _)).mpr hc.2⟩

theorem Requests.connecting {p : RequestPred} {c : Connection} {e : Event} (hc : Requests p c) (h : e.connecting) :
    Requests p (c.log e) :=
  hc.log (by rintro rfl; cases h) (requestAfter_connecting h)

/-! ## The state -/

section
variable {url : Text} {state : ConnectionState}

/-- The state of the end of an attempt is reported, unless it was reported before. -/
theorem setState_reported (hstate : state = .connected ∨ state = .disconnected) :
    Triple reportContract (Requests (RequestPred.pending url)) (setState state)
      fun _ => Requests (RequestPred.reported url) := by
  have hinter : ¬ state.intermediate := by rcases hstate with rfl | rfl <;> simp [ConnectionState.intermediate]
  have hreports : (Event.callback state).reports := by rcases hstate with rfl | rfl <;> rfl
  have hcallback : ∀ c, Requests (.taken url) c → Requests (.reported url) (c.log (.callback state)) := by
    rintro c ⟨hanswered, reported, hr⟩
    refine ⟨hanswered.log (by simp), ?_⟩
    show requestAfter (.callback state) (request c.history) = _
    simp [requestAfter, hreports, hr, Request.report]
  apply setState_triple
  · exact RequestPred.stable_pending.holds false
  · exact (RequestPred.stable_taken : (RequestPred.taken url).Stable).holds false
  · exact (RequestPred.stable_reported : (RequestPred.reported url).Stable).holds false
  · exact fun c hc hsame => ⟨hc.1.log (by simp), hc.2.reported (hsame ▸ hinter)⟩
  · exact fun c hc _ => ⟨hc.1.log (by simp), hc.2.taken⟩
  · exact fun c hc _ => hcallback c hc
  · exact fun c hc _ => hcallback c hc
  · exact fun c hc _ => hc

theorem threadCancelConnection_reported :
    Triple reportContract (Requests (RequestPred.pending url)) threadCancelConnection
      fun _ => Requests (RequestPred.reported url) := by
  have hreset : Triple reportContract (Requests (RequestPred.pending url)) resetConnectionState
      fun _ => Requests (RequestPred.pending url) :=
    resetConnectionState_triple (RequestPred.stable_pending.holds false) (fun _ hc => hc) (fun _ hc => hc)
      fun _ hc => hc
  exact hreset.bind fun _ => setState_reported (Or.inr rfl)

end

/-! ## Steps that change neither the request nor the state -/

section
variable {p : RequestPred}

theorem act_requests {f : Connection → Connection} (hp : p.Stable) (hf : ∀ c, Requests p c → Requests p (f c)) :
    Triple reportContract (Requests p) (.act f) fun _ => Requests p :=
  .act (hp.holds false) hf

theorem note_requests {e : Event} (hp : p.Stable) (he : e ≠ .processed) (hsame : ∀ r, requestAfter e r = r) :
    Triple reportContract (Requests p) (note e) fun _ => Requests p :=
  act_requests hp fun _ hc => hc.log he hsame

theorem setLastError_requests {e : ConnectionError} (hp : p.Stable) :
    Triple reportContract (Requests p) (setLastError e) fun _ => Requests p :=
  act_requests hp fun _ hc => hc

theorem drainMessages_requests (hp : p.Stable) :
    Triple reportContract (Requests p) drainMessages fun _ => Requests p :=
  act_requests hp fun _ hc => hc.log (by simp) fun _ => rfl

end

/-- The end of an attempt that has failed is reported. -/
theorem onFatalError_reported {url : Text} (e : ConnectionError) :
    Triple reportContract (Requests (RequestPred.pending url)) (onFatalError e)
      fun _ => Requests (RequestPred.reported url) := by
  have hread : Triple reportContract (Requests (RequestPred.pending url)) (.read (·.connState)) fun state c =>
      Requests (fun r s => RequestPred.pending url r s ∧ (state = .connected → RequestPred.reported url r s)) c :=
    .read (RequestPred.stable_pending.holds false) fun c hc =>
      ⟨hc.1, hc.2, fun hconn => hc.2.reported (by rw [hconn]; simp [ConnectionState.intermediate])⟩
  refine (setLastError_requests RequestPred.stable_pending).bind fun _ => hread.bind fun state => ?_
  have hstable : RequestPred.Stable fun r s =>
      RequestPred.pending url r s ∧ (state = .connected → RequestPred.reported url r s) := by
    refine ⟨fun r h => ⟨RequestPred.stable_pending.reconnects r h.1, h.2⟩, fun r s h hs => ⟨?_, fun hconn => ?_⟩⟩
    · exact RequestPred.stable_pending.ends r s h.1 hs
    · exact RequestPred.stable_reported.ends r s (h.2 hconn) hs
  refine Triple.bind (.ask (hstable.holds false) fun _ _ _ hc _ => hc) fun shouldReconnect => ?_
  split
  · next hconn =>
    have hset : Triple reportContract (Requests (RequestPred.reported url)) (setState .reconnecting)
        fun _ => Requests (RequestPred.reported url) :=
      setState_triple_of_ne (by simp) (RequestPred.stable_reported.holds false)
        (RequestPred.stable_reported.holds false)
        (fun _ hc => ⟨hc.1.log (by simp), hc.2⟩) fun _ hc => hc.log (by simp) fun _ => rfl
    refine ((drainMessages_requests RequestPred.stable_reported).bind fun _ => hset).pre fun c hc => ?_
    exact ⟨hc.1, hc.2.2 hconn.1⟩
  · exact threadCancelConnection_reported.pre fun c hc => ⟨hc.1, hc.2.1⟩

/-- A request whose destination is no URL fails while the connection is disconnected, so that nothing changes. -/
theorem onFatalError_unreported {url : Text} (e : ConnectionError) :
    Triple reportContract (Requests (RequestPred.fresh url)) (onFatalError e)
      fun _ => Requests (RequestPred.fresh url) := by
  have hread : Triple reportContract (Requests (RequestPred.fresh url)) (.read (·.connState))
      fun state => Requests fun r s => RequestPred.fresh url r s ∧ state = .disconnected :=
    .read (RequestPred.stable_fresh.holds false) fun c hc => ⟨hc.1, hc.2, hc.2.2⟩
  refine (setLastError_requests RequestPred.stable_fresh).bind fun _ => hread.bind fun state => ?_
  have hstable : RequestPred.Stable fun r s => RequestPred.fresh url r s ∧ state = .disconnected :=
    ⟨fun _ h => (by cases h.1.2), fun _ _ h hs => absurd h.1.2 hs⟩
  refine Triple.bind (.ask (hstable.holds false) fun _ _ _ hc _ => hc) fun shouldReconnect => ?_
  split
  · next hconn =>
    intro c hc
    have himpossible := hc.2.2
    rw [hconn.1] at himpossible
    cases himpossible
  · have hreset : Triple reportContract (Requests (RequestPred.fresh url)) resetConnectionState
        fun _ => Requests (RequestPred.fresh url) :=
      resetConnectionState_triple (RequestPred.stable_fresh.holds false) (fun _ hc => hc) (fun _ hc => hc)
        fun _ hc => hc
    have hset : Triple reportContract (Requests (RequestPred.fresh url)) (setState .disconnected)
        fun _ => Requests (RequestPred.fresh url) :=
      setState_triple_same (RequestPred.stable_fresh.holds false) (fun _ hc => hc.2.2)
        fun _ hc => ⟨hc.1.log (by simp), hc.2.1, rfl⟩
    exact (hreset.bind fun _ => hset).pre fun c hc => ⟨hc.1, hc.2.1⟩

/-! ## Attempts -/

/-- While an attempt waits, it may be dropped; its end is then still to be reported. -/
def attemptContract (url : Text) : Contract Connection Answer Abort :=
  reportContract.whileWaiting fun c => IsUrl url ∧ Requests (RequestPred.pending url) c

section
variable {url : Text} {α : Type}

theorem Requests.connectStep {c c' : Connection} (hc : Requests (RequestPred.pending url) c) (h : ConnectStep c c') :
    Requests (RequestPred.pending url) c' := by
  cases h with
  | log e he => exact hc.connecting he
  | exchange state hstate =>
    obtain ⟨reported, hr, -⟩ := hc.2
    exact ⟨hc.1.log (by simp), reported, hr, Or.inr hstate⟩
  | _ => exact hc

theorem taken_holds : (attemptContract url).Holds false (Requests (RequestPred.taken url)) :=
  (RequestPred.stable_taken.holds false).run

section
variable (hurl : IsUrl url)
include hurl

theorem pending_holds (suspends : Bool) :
    (attemptContract url).Holds suspends (Requests (RequestPred.pending url)) :=
  (RequestPred.stable_pending.holds suspends).wait fun _ hc => ⟨hurl, hc⟩

/-- An attempt that is under way. -/
theorem connects_report {t : Worker α} (h : Connects t) :
    Triple (attemptContract url) (Requests (RequestPred.pending url)) t
      fun _ => Requests (RequestPred.pending url) :=
  h.triple (fun _ _ hc hstep => hc.connectStep hstep) (fun _ _ _ hc => hc.1) (pending_holds hurl false)
    (pending_holds hurl true)

/-- The first state of an attempt. -/
theorem setState_report {state : ConnectionState} (hstate : state.intermediate) :
    Triple (attemptContract url) (Requests (RequestPred.taken url)) (setState state)
      fun _ => Requests (RequestPred.pending url) := by
  apply setState_triple_of_ne
  · rintro rfl
    cases hstate
  · exact taken_holds
  · exact pending_holds hurl false
  · rintro c ⟨hanswered, reported, hr⟩
    exact ⟨hanswered.log (by simp), reported, hr, Or.inr hstate⟩
  · exact fun c hc => hc.connecting (show (Event.callback state).connecting from hstate)

theorem threadFinalConnect_report (addrs : List Candidate) :
    Triple (attemptContract url) (Requests (RequestPred.taken url)) (threadFinalConnect addrs)
      fun _ => Requests (RequestPred.pending url) := by
  have hassert : Triple (attemptContract url) (Requests (RequestPred.taken url))
      (.assert (!addrs.isEmpty) .noCandidates)
      fun _ => Requests (RequestPred.taken url) :=
    .assert taken_holds (fun _ _ hc => hc) fun _ _ hc => hc.1
  refine hassert.bind fun _ => (setState_report hurl rfl).bind fun _ => ?_
  exact connects_report hurl (.bind prepares_read.connects fun _ => tryCandidates_connects _ _)

theorem threadPingCandidates_report (addrs : List SocketAddress) :
    Triple (attemptContract url) (Requests (RequestPred.taken url)) (threadPingCandidates addrs)
      fun _ => Requests (RequestPred.pending url) := by
  refine (setState_report hurl rfl).bind fun _ => connects_report hurl ?_
  exact .bind (startPings_looks fun _ => id).prepares.connects fun _ =>
    .bind (awaitPings_looks _ _ _ _).prepares.connects fun _ =>
    .bind prepares_read.connects fun _ => .bind prepares_ask.connects fun _ => threadFinalConnect_connects _

theorem threadConnectIp_report (address : SocketAddress) (type : ConnectionType) :
    Triple (attemptContract url) (Requests (RequestPred.taken url)) (threadConnectIp address type)
      fun _ => Requests (RequestPred.pending url) := by
  refine Triple.bind (Q := fun _ => Requests (RequestPred.taken url)) (.read taken_holds fun _ hc => hc) fun _ => ?_
  refine Triple.bind (Q := fun _ => Requests (RequestPred.taken url)) (.act taken_holds fun _ hc => hc) fun _ => ?_
  refine Triple.bind (Q := fun _ => Requests (RequestPred.taken url)) (.act taken_holds fun _ hc => hc) fun _ => ?_
  unfold threadConnectWithIps
  rw [if_neg (by simp)]
  dsimp only
  split
  · exact threadPingCandidates_report hurl _
  · exact threadFinalConnect_report hurl _

theorem threadConnectDomain_report (hostname : Text) (port : Option UInt16) (type : ConnectionType) :
    Triple (attemptContract url) (Requests (RequestPred.taken url)) (threadConnectDomain hostname port type)
      fun _ => Requests (RequestPred.pending url) := by
  refine (setState_report hurl rfl).bind fun _ => (connects_report hurl prepares_read.connects).bind fun settings => ?_
  refine (connects_report hurl (resolveDomain_looks hostname port type settings).prepares.connects).bind fun addrs => ?_
  split
  · exact .pure fun _ hc => hc
  · refine (connects_report hurl (.act fun c => .target hostname c.connectPath)).bind fun _ => ?_
    exact connects_report hurl (threadConnectWithIps_connects _ _ _)

end

/-- What is known when an attempt is over. -/
def Attempted (url : Text) (r : ConnectionResult Unit) : RequestPred := fun request state =>
  (IsUrl url → RequestPred.pending url request state) ∧
    (¬ IsUrl url → RequestPred.fresh url request state ∧ ∃ e, r = .error e)

theorem threadConnect_report :
    Triple (attemptContract url) (Requests (RequestPred.fresh url)) (threadConnect url)
      fun r => Requests (Attempted url r) := by
  have hfresh : (attemptContract url).Holds false (Requests (RequestPred.fresh url)) :=
    (RequestPred.stable_fresh.holds false).run
  have hbegin : Triple (attemptContract url) (Requests (RequestPred.fresh url)) (note (.threadConnect url))
      fun _ => Requests (RequestPred.fresh url) :=
    note_triple hfresh fun c hc => hc.connecting rfl
  refine hbegin.bind fun _ => ?_
  cases hparse : UrlParser.parse url with
  | none => exact .abort hfresh fun _ hc => hc.1
  | some r =>
    cases r with
    | error e =>
      refine .pure fun c hc => ⟨hc.1, fun hurl => ?_, fun _ => ⟨hc.2, _, rfl⟩⟩
      obtain ⟨parser, hok⟩ := hurl
      rw [hparse] at hok
      cases hok
    | ok parser =>
      have hurl : IsUrl url := ⟨parser, hparse⟩
      have hreset : Triple (attemptContract url) (Requests (RequestPred.fresh url)) resetConnectionState
          fun _ => Requests (RequestPred.taken url) :=
        resetConnectionState_triple hfresh (fun _ hc => hc) (fun _ hc => hc) fun _ hc => ⟨hc.1, hc.2.taken⟩
      have hpath : Triple (attemptContract url) (Requests (RequestPred.taken url))
          (.act fun c => { c with connectPath := parser.path }) fun _ => Requests (RequestPred.taken url) :=
        .act taken_holds fun _ hc => hc
      refine hreset.bind fun _ => hpath.bind fun _ => ?_
      refine Triple.post (Q := fun _ => Requests (RequestPred.pending url)) ?_ fun r c hc =>
        ⟨hc.1, fun _ => hc.2, fun hnot => absurd hurl hnot⟩
      split
      · exact threadConnectIp_report hurl _ _
      · exact threadConnectIp_report hurl _ _
      · exact threadConnectDomain_report hurl _ _ _
      · exact threadConnectDomain_report hurl _ _ _

end

/-! ## Passes -/

/-- The end of the attempt has been reported, unless there could be none. -/
def RequestPred.answered (url : Text) : RequestPred := fun r state =>
  (IsUrl url → RequestPred.reported url r state) ∧ (¬ IsUrl url → RequestPred.fresh url r state)

theorem RequestPred.stable_answered {url : Text} : (RequestPred.answered url).Stable := by
  refine ⟨fun r h => ⟨h.1, fun hurl => stable_fresh.reconnects r (h.2 hurl)⟩, fun r state h hstate => ⟨?_, ?_⟩⟩
  · exact fun hurl => stable_reported.ends r state (h.1 hurl) hstate
  · exact fun hurl => stable_fresh.ends r state (h.2 hurl) hstate

theorem finishConnect_report (url : Text) (r : Option (ConnectionResult Unit)) :
    Triple reportContract (fun c => r.elim (IsUrl url ∧ Requests (RequestPred.pending url) c)
      fun r => Requests (Attempted url r) c) (finishConnect r) fun _ => Requests (RequestPred.answered url) := by
  by_cases hurl : IsUrl url
  · have hpending : ∀ t : Worker Unit, Triple reportContract (Requests (RequestPred.pending url)) t
        (fun _ => Requests (RequestPred.reported url)) →
        Triple reportContract (Requests (RequestPred.pending url)) t fun _ => Requests (RequestPred.answered url) :=
      fun t h => h.post fun _ c hc => ⟨hc.1, fun _ => hc.2, fun hnot => absurd hurl hnot⟩
    have hdrain := drainMessages_requests (RequestPred.stable_reported : (RequestPred.reported url).Stable)
    rcases r with _ | e | ⟨⟩
    · exact (hpending _ threadCancelConnection_reported).pre fun _ hc => hc.2
    · exact (hpending _ ((onFatalError_reported e).bind fun _ => hdrain)).pre fun _ hc => ⟨hc.1, hc.2.1 hurl⟩
    · refine (hpending _ ?_).pre fun _ hc => ⟨hc.1, hc.2.1 hurl⟩
      exact (setState_reported (Or.inl rfl)).bind fun _ =>
        (setLastError_requests RequestPred.stable_reported).bind fun _ => hdrain
  · rcases r with _ | e | ⟨⟩
    · exact fun c hc => absurd hc.1 hurl
    · have hdrain := drainMessages_requests (RequestPred.stable_fresh : (RequestPred.fresh url).Stable)
      exact ((onFatalError_unreported e).bind fun _ => hdrain).mono (fun c hc => ⟨hc.1, (hc.2.2 hurl).1⟩)
        fun _ c hc => ⟨hc.1, fun h => absurd h hurl, fun _ => hc.2⟩
    · intro c hc
      obtain ⟨-, e, he⟩ := hc.2.2 hurl
      cases he

theorem disconnectedPass_report :
    Triple reportContract (Requests fun _ state => state = .disconnected) disconnectedPass
      fun _ => Requests fun _ _ => True := by
  have hrecv : Triple reportContract (Requests fun _ state => state = .disconnected) recvRequest
      fun url => Requests (RequestPred.fresh url) :=
    recvRequest_triple (RequestPred.stable_disconnected.holds true) fun c url chan hc _ =>
      ⟨hc.1.log (by simp), rfl, hc.2⟩
  refine hrecv.bind fun url => ?_
  have hattempted : ∀ r, RequestPred.Stable (Attempted url r) := by
    refine fun r => ⟨fun request h => ⟨fun hurl => ?_, fun hurl => ?_⟩,
      fun request s h hs => ⟨fun hurl => ?_, fun hurl => ?_⟩⟩
    · exact RequestPred.stable_pending.reconnects _ (h.1 hurl)
    · cases (h.2 hurl).1.2
    · exact RequestPred.stable_pending.ends _ _ (h.1 hurl) hs
    · exact absurd (h.2 hurl).1.2 hs
  have hrace : Triple reportContract (Requests (RequestPred.fresh url))
      ((threadConnect url).race disconnectWaiter false)
      fun r c => r.elim (IsUrl url ∧ Requests (RequestPred.pending url) c) fun r => Requests (Attempted url r) c :=
    Triple.race reportContract_tolerates (fun r => (hattempted r).holds false) threadConnect_report
  refine hrace.bind fun r => (finishConnect_report url r).bind fun _ => ?_
  refine note_triple (RequestPred.stable_answered.holds false) fun c hc => ⟨?_, trivial⟩
  by_cases hurl : IsUrl url
  · exact hc.1.processed (hc.2.1 hurl) (by simpa using hurl)
  · exact hc.1.processed (hc.2.2 hurl).1 (by simpa using hurl)

/-- What all other passes need. -/
theorem any_holds (suspends : Bool) : reportContract.Holds suspends (Requests fun _ _ => True) :=
  RequestPred.stable_any.holds suspends

theorem setState_any (state : ConnectionState) :
    Triple reportContract (Requests fun _ _ => True) (setState state) fun _ => Requests fun _ _ => True :=
  setState_triple (any_holds false) (any_holds false) (any_holds false) (fun _ hc _ => ⟨hc.1.log (by simp), trivial⟩)
    (fun _ hc _ => ⟨hc.1.log (by simp), trivial⟩) (fun _ hc _ => ⟨hc.1.log (by simp), trivial⟩)
    (fun _ hc _ => ⟨hc.1.log (by simp), trivial⟩) fun _ hc _ => hc

theorem threadCancelConnection_any :
    Triple reportContract (Requests fun _ _ => True) threadCancelConnection fun _ => Requests fun _ _ => True :=
  (resetConnectionState_triple (any_holds false) (fun _ hc => hc) (fun _ hc => hc) fun _ hc => hc).bind
    fun _ => setState_any .disconnected

theorem onFatalError_any (e : ConnectionError) :
    Triple reportContract (Requests fun _ _ => True) (onFatalError e) fun _ => Requests fun _ _ => True := by
  refine (setLastError_requests RequestPred.stable_any).bind fun _ => ?_
  refine Triple.bind (Q := fun _ => Requests fun _ _ => True) (.read (any_holds false) fun _ hc => hc) fun state => ?_
  refine Triple.bind (Q := fun _ => Requests fun _ _ => True) (.ask (any_holds false) fun _ _ _ hc _ => hc) fun _ => ?_
  split
  · exact (drainMessages_requests RequestPred.stable_any).bind fun _ => setState_any _
  · exact threadCancelConnection_any

theorem Requests.any_log {c : Connection} {e : Event} (hc : Requests (fun _ _ => True) c) (he : e ≠ .processed) :
    Requests (fun _ _ => True) (c.log e) := ⟨hc.1.log he, trivial⟩

theorem wakeRule_report :
    WakeRule reportContract (Requests fun _ _ => True) (Requests fun _ _ => True) where
  runs := any_holds false
  waits := any_holds true
  empty := Or.inr fun _ hc => hc.1
  closing := setState_any .closing
  fatal := onFatalError_any
  lastError _ _ hc := hc
  dataCallback _ _ hc := hc.any_log (by simp)
  weaken _ hc := hc

theorem connectedPass_report :
    Triple reportContract (Requests fun _ _ => True) connectedPass fun _ => Requests fun _ _ => True := by
  have hload : Triple reportContract (Requests fun _ _ => True) loadDisconnectReq fun requested c =>
      if requested then Requests (fun _ _ => True) c else Requests (fun _ _ => True) c :=
    loadDisconnectReq_triple (any_holds false) (fun _ hc _ => hc.any_log (by simp)) fun _ hc _ => hc.any_log (by simp)
  have hready : ∀ r c wake c', Requests (fun _ _ => True) c → wakeReady r c = some (wake, c') →
      Requests (fun _ _ => True) (c'.log .selected) := by
    intro r c wake c' hc hready
    obtain ⟨m, chan, -, -, rfl⟩ | ⟨-, rfl | rfl⟩ := wakeReady_cases hready
    · exact (hc.any_log (e := .received m) (by simp)).any_log (by simp)
    · exact hc.any_log (by simp)
    · exact hc.any_log (by simp)
  exact connectedPass_triple hload wakeRule_report.closing wakeRule_report.runs wakeRule_report.empty
    wakeRule_report.waits (fun _ hc => hc) hready (fun r c wake c' hc _ => hready r c wake c' hc)
    fun wake => wakeRule_report.onWake fun _ _ => note_requests RequestPred.stable_any (by simp) fun _ => rfl

/-- Attempts to reconnect do not process requests either. -/
theorem attemptRule_report : AttemptRule reportContract (Requests fun _ _ => True) (fun _ => Requests fun _ _ => True)
    (fun _ => Requests fun _ _ => True) (Requests fun _ _ => True) where
  runs := any_holds false
  waits := any_holds true
  moved _ hc := hc.1
  empty := Or.inr fun _ hc => hc.1
  stored := Or.inr fun _ hc => hc.1
  options _ _ hc := hc.any_log (by simp)
  start _ _ hc := hc.any_log (by simp)
  holds_read _ := any_holds false
  read _ _ hc _ := hc
  present _ _ hc := hc.any_log (by simp)
  holds_takeOver _ := any_holds false
  takeOver _ _ _ hc _ := hc
  install _ _ hc := hc
  fresh _ _ hc := hc
  holds_installed := any_holds false
  stateReset _ hc := hc.any_log (by simp)

theorem race_any {α : Type} {t : Worker α} {first : Bool}
    (h : Triple reportContract (Requests fun _ _ => True) t fun _ => Requests fun _ _ => True) :
    Triple reportContract (Requests fun _ _ => True) (t.race disconnectWaiter first)
      fun r c => r.elim (Answered c.history) fun _ => Requests (fun _ _ => True) c :=
  Triple.race reportContract_tolerates (fun _ => any_holds false) (h.whileWaiting fun _ hc => hc)

theorem reconnectingPass_report :
    Triple reportContract (Requests fun _ _ => True) reconnectingPass fun _ => Requests fun _ _ => True := by
  have hload : Triple reportContract (Requests fun _ _ => True) loadDisconnectReq fun requested c =>
      if requested then Answered c.history else Requests (fun _ _ => True) c :=
    loadDisconnectReq_triple (any_holds false) (fun _ hc _ => hc.1.log (by simp)) fun _ hc _ => hc.any_log (by simp)
  have hdebounce : Triple reportContract (Requests fun _ _ => True) debounce fun _ => Requests fun _ _ => True :=
    debounce_triple reportContract_tolerates any_holds fun _ hc => hc.any_log (by simp)
  refine reconnectingPass_triple (N := fun _ _ => Requests fun _ _ => True) hload
    (threadCancelConnection_any.pre fun _ hc => ⟨hc, trivial⟩) (.update (any_holds false) fun _ hc => hc)
    (fun _ _ _ hc => hc.1) (fun _ => hdebounce) (fun _ _ => any_holds false) (fun _ _ _ hc => hc)
    (fun _ stateless _ => ?_) (fun _ hc => hc) (note_requests RequestPred.stable_any (by simp) fun _ => rfl)
  exact race_any (attemptRule_report.reconnectFut (E := fun _ => Requests fun _ _ => True) (any_holds false)
    (fun _ hc => hc.any_log (by simp)) (setState_any .connected) (fun _ _ hc => hc.any_log (by simp))
    (fun _ => any_holds false) (fun _ _ hc _ _ => hc) fun _ _ => .await (any_holds true) fun _ _ _ hc _ => hc)

theorem workerThreadLoop_report :
    Triple reportContract (Requests fun _ _ => True) workerThreadLoop fun _ => Requests fun _ _ => True := by
  have hread : Triple reportContract (Requests fun _ _ => True) (.read (·.connState))
      fun state => Requests fun _ s => s = state :=
    .read (any_holds false) fun _ hc => ⟨hc.1, rfl⟩
  have hany : ∀ {state : ConnectionState} {t : Worker Unit},
      Triple reportContract (Requests fun _ _ => True) t (fun _ => Requests fun _ _ => True) →
      Triple reportContract (Requests fun _ s => s = state) t fun _ => Requests fun _ _ => True :=
    fun h => h.pre fun _ hc => ⟨hc.1, trivial⟩
  refine hread.bind fun state => ?_
  split
  · exact disconnectedPass_report
  iterate 3 exact hany (setState_any .disconnected)
  · exact hany connectedPass_report
  · exact hany reconnectingPass_report
  · exact hany (closingPass_triple (any_holds false) (any_holds true) (Or.inr fun _ hc => hc.1) (fun _ hc => hc)
      onFatalError_any threadCancelConnection_any)

/-- A request that was processed has been reported since the worker took it, exactly if its destination is a URL: in
every run, whatever becomes of the attempt, simulated drops included. -/
theorem processed_reported_iff {c : ConnectionConfig} (h : Running (fun _ _ => True) c) {later earlier : List Event}
    (hprocessed : c.shared.history = later ++ .processed :: earlier) :
    ∃ r, request earlier = some r ∧ (r.reported = true ↔ IsUrl r.destination) := by
  have hsafe : Safe reportContract (fun _ => Requests fun _ _ => True) c.task c.shared := by
    refine Triple.invariant workerThreadLoop_report (any_holds false).stable (fun _ _ _ => trivial)
      (fun c e c' _ hstep => Or.inl ⟨e, hstep⟩) ?_ h
    refine ⟨fun later earlier heq => ?_, trivial⟩
    simp at heq
  exact hsafe.always (fun _ hc => hc.1) (fun _ _ hc => hc) (fun _ _ hc => hc) later earlier hprocessed

end

theorem processed_reported_iff_connected : ∃ c earlier, @runConnection plainHost
    (callEvents (.connect tcpUrl) ++ attemptEvents ++ acceptEvents ++ connectedEvents) = some c ∧
    c.shared.history = .processed :: earlier ∧
    ∃ r, request earlier = some r ∧ (r.reported = true ↔ @IsUrl plainHost r.destination) := by
  obtain ⟨c, hrun, hlast⟩ := Option.map_eq_some_iff.mp (show (@runConnection plainHost
    (callEvents (.connect tcpUrl) ++ attemptEvents ++ acceptEvents ++ connectedEvents)).map (fun c =>
      c.shared.history.head?.map Event.isProcessed) = some (some true) by decide +kernel)
  obtain ⟨earlier, hhistory⟩ := eq_processed_cons hlast
  refine ⟨c, earlier, hrun, hhistory, ?_⟩
  exact @processed_reported_iff plainHost c (@Running.of_run plainHost _ _ _ (fun _ _ _ => trivial) hrun) [] earlier
    hhistory

/-- A destination with a protocol that does not exist. -/
def otherUrl : Text := ['x', ':', '/', '/', 'h']

/-- The worker takes a request and is done with it, because its destination is no URL. -/
def refusedEvents : List ConnectionEvent :=
  List.replicate 7 (.own .ready) ++ [.own (.flag true)] ++ List.replicate 6 (.own .ready)

/-- The request is accepted and processed, and nothing is reported. -/
theorem processed_unreported : ∃ c earlier, @runConnection plainHost (callEvents (.connect otherUrl) ++ refusedEvents) =
    some c ∧ c.task.returned = true ∧ c.shared.history = .processed :: earlier ∧
    request earlier = some { destination := otherUrl, reported := false } := by
  obtain ⟨c, hrun, hend⟩ := Option.map_eq_some_iff.mp (show (@runConnection plainHost
    (callEvents (.connect otherUrl) ++ refusedEvents)).map (fun c =>
      (c.task.returned, c.shared.history.head?.map Event.isProcessed, request c.shared.history)) =
      some (true, some true, some { destination := otherUrl, reported := false }) by decide +kernel)
  simp only [Prod.mk.injEq] at hend
  obtain ⟨hret, hlast, hrequest⟩ := hend
  obtain ⟨earlier, hhistory⟩ := eq_processed_cons hlast
  rw [hhistory] at hrequest
  exact ⟨c, earlier, hrun, hret, hhistory, hrequest⟩

end Qunet
