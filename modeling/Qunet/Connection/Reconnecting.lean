import Qunet.Connection.StateInvariant

/-!
# Reconnecting

An outage begins when a connected worker starts to reconnect, and ends when it is connected or disconnected again.

* `Outage`, `outage` : the outage that a history ends with, and its attempts;
* `Outage.Good` : at most six attempts, stateless ones exactly after a rejected one, the previous socket in all of them;
* `Outage.Settled` : between two attempts, the counter and the flag agree with the attempts;
* `reconnectingPass_outage`, … : one rule for each function that takes part;
* **`reconnect_discipline`** : every run, simulated drops included.
-/

namespace Qunet
open Lib

/-! ## Outages -/

/-- One call of `threadTryReconnect`, with the socket at its start. -/
structure ReconnectAttempt where
  stateless : Bool
  socket : Option Socket
  presented : List UInt64 := []
  failure : Option ConnectionError := none

/-- The server has rejected the connection id. -/
def ReconnectAttempt.rejected (a : ReconnectAttempt) : Bool := !a.stateless && a.failure.any isReconnectFailed

/-- The socket when it began, and the attempts, newest first. -/
structure Outage where
  socket : Option Socket
  attempts : List ReconnectAttempt

/-- What is learned about the newest attempt. -/
def Outage.amend (f : ReconnectAttempt → ReconnectAttempt) (o : Outage) : Outage :=
  match o.attempts with
  | [] => o
  | a :: rest => { o with attempts := f a :: rest }

def outageAfter : Event → Option Outage → Option Outage
  | .exchange .connected .reconnecting socket, _ => some ⟨socket, []⟩
  | .exchange _ .connected _, _ => none
  | .exchange _ .disconnected _, _ => none
  | .tryReconnect stateless socket, o => o.map fun o => { o with attempts := { stateless, socket } :: o.attempts }
  | .handshake (.clientReconnect m), o => o.map (.amend fun a => { a with presented := m.connectionId :: a.presented })
  | .reconnectFailed _ e, o => o.map (.amend fun a => { a with failure := some e })
  | _, o => o

/-- The outage that is not over after these events. -/
def outage : List Event → Option Outage
  | [] => none
  | e :: history => outageAfter e (outage history)

theorem outageAfter_disconnected {prev : ConnectionState} {socket : Option Socket} {o : Option Outage} :
    outageAfter (.exchange prev .disconnected socket) o = none := by
  cases prev <;> rfl

theorem outageAfter_connected {prev : ConnectionState} {socket : Option Socket} {o : Option Outage} :
    outageAfter (.exchange prev .connected socket) o = none := by
  cases prev <;> rfl

/-- An attempt is stateless exactly if an earlier one was rejected. -/
def Disciplined : List ReconnectAttempt → Prop
  | [] => True
  | a :: earlier => (a.stateless = true ↔ earlier.any (·.rejected) = true) ∧ Disciplined earlier

structure Outage.Good (o : Outage) : Prop where
  attempts_le : o.attempts.length ≤ 6
  disciplined : Disciplined o.attempts
  socket : ∀ a ∈ o.attempts, a.socket = o.socket
  presented : ∀ a ∈ o.attempts, ∀ id ∈ a.presented, o.socket.map (·.transport.connectionId) = some id

theorem Disciplined.stateless_after {attempts : List ReconnectAttempt} (h : Disciplined attempts) {i j : Nat}
    (hij : i < j) {a b : ReconnectAttempt} (ha : attempts[i]? = some a) (hb : attempts[j]? = some b)
    (hrejected : b.rejected) : a.stateless = true := by
  induction attempts generalizing i j with
  | nil => simp at ha
  | cons c rest ih =>
    obtain ⟨j, rfl⟩ := Nat.exists_eq_add_of_lt hij
    simp only [List.getElem?_cons_succ] at hb
    cases i with
    | zero =>
      simp only [List.getElem?_cons_zero, Option.some.injEq] at ha
      subst ha
      exact h.1.mpr (List.any_eq_true.mpr ⟨b, List.mem_of_getElem? hb, hrejected⟩)
    | succ i => exact ih h.2 (i := i) (j := i + 1 + j) (by omega) (by simpa using ha) hb

/-! ## The contract -/

/-- Between two attempts. -/
structure Outage.Settled (o : Outage) (v : View) : Prop where
  good : o.Good
  socket : v.socket = o.socket
  failed : ∀ a ∈ o.attempts, a.failure.isSome
  counter : v.data.reconnectAttempt.toNat = o.attempts.length
  flag : v.data.tryStatelessReconnect = o.attempts.any (·.rejected)

abbrev OutagePred := Option Outage → View → Prop

namespace OutagePred

/-- Nothing was done that must not be done. -/
def good : OutagePred := fun o _ => ∀ x, o = some x → x.Good

/-- What holds while the worker waits. -/
def waiting : OutagePred := fun o v => ∀ x, o = some x → x.Good ∧ v.socket = x.socket

/-- In which states an outage is not over. -/
def tracked : OutagePred := fun o v => o.isSome → v.connState = .reconnecting ∨ v.connState = .closing

/-- What holds when a pass begins. -/
structure settled (o : Option Outage) (v : View) : Prop where
  outage : ∀ x, o = some x → x.Settled v
  tracked : tracked o v
  connected : v.connState = .connected → v.data.reconnectAttempt = 0 ∧ v.data.tryStatelessReconnect = false

/-- While the worker connects. -/
def idle : OutagePred := fun o v => o = none ∧ v.connState ≠ .connected

/-- Between the exchange that ends an outage and the reset of the counter, a new one may begin. -/
def fresh : OutagePred := fun o v => (∀ x, o = some x → x.attempts = [] ∧ v.socket = x.socket) ∧ tracked o v

/-- An attempt can be made: its number, and whether it will be stateless. -/
structure due (attempt : UInt16) (stateless : Bool) (o : Option Outage) (v : View) : Prop where
  outage : ∀ x, o = some x → x.Good ∧ v.socket = x.socket ∧ (∀ a ∈ x.attempts, a.failure.isSome) ∧
    v.data.reconnectAttempt.toNat = x.attempts.length + 1 ∧ v.data.tryStatelessReconnect = x.attempts.any (·.rejected) ∧
    attempt = v.data.reconnectAttempt ∧ stateless = v.data.tryStatelessReconnect
  tracked : tracked o v
  state : v.connState ≠ .connected

/-- The newest attempt is not over, or has ended with this error. -/
structure trying (stateless : Bool) (failure : Option ConnectionError) (o : Option Outage) (v : View) : Prop where
  outage : ∀ x, o = some x → x.Good ∧ v.socket = x.socket ∧ ∃ cur rest, x.attempts = cur :: rest ∧
    cur.stateless = stateless ∧ cur.failure = failure ∧ (∀ a ∈ rest, a.failure.isSome) ∧
    v.data.reconnectAttempt.toNat = rest.length + 1 ∧ v.data.tryStatelessReconnect = rest.any (·.rejected)
  tracked : tracked o v
  state : v.connState ≠ .connected

/-- The attempt has succeeded, but the state does not say so yet. -/
structure succeeded (o : Option Outage) (v : View) : Prop where
  good : good o v
  tracked : tracked o v
  state : v.connState ≠ .connected

end OutagePred

def outageContract : Contract Connection Answer Abort where
  rely _ c c' := (∃ e, userStep e c = some c') ∨ c' = disconnectWaiter.register c ∨ c' = disconnectWaiter.drop c
  admits _ _ _ := True
  inv suspends c := (if suspends then OutagePred.waiting else OutagePred.good) (outage c.history) c.view
  aborts _ c := OutagePred.good (outage c.history) c.view

abbrev OutageTriple {α : Type} (p : OutagePred) (t : Worker α) (q : α → OutagePred) : Prop :=
  Triple outageContract (fun c => p (outage c.history) c.view) t fun a c => q a (outage c.history) c.view

/-- A drop begins an outage, or ends it. -/
theorem outage_userStep {e : UserEvent} {c c' : Connection} (h : userStep e c = some c') :
    (outage c'.history = outage c.history ∧ c'.view = c.view) ∨
      (c.connState = .connected ∧ outage c'.history = some ⟨c.socket, []⟩ ∧
        c'.view = { c.view with connState := .reconnecting }) ∨
      (outage c'.history = none ∧ c'.view = ⟨.disconnected, none, {}⟩) := by
  cases userStep_change h with
  | drop b =>
    refine Or.inr ?_
    by_cases hdrop : c.connState = .connected ∧ b = true
    · obtain ⟨hconn, rfl⟩ := hdrop
      rw [dropped_connected hconn]
      exact Or.inl ⟨hconn, rfl, rfl⟩
    · rw [dropped_disconnected hdrop]
      refine Or.inr ⟨?_, rfl⟩
      split
      · simp [outage, outageAfter_disconnected]
      · simp [outage, outageAfter]
  | _ => exact Or.inl ⟨rfl, rfl⟩

/-- What a drop leaves of a predicate. -/
structure OutagePred.Stable (p : OutagePred) : Prop where
  opens : ∀ o v, p o v → v.connState = .connected → p (some ⟨v.socket, []⟩) { v with connState := .reconnecting }
  ends : p none ⟨.disconnected, none, {}⟩

theorem OutagePred.Stable.holds {p : OutagePred} (hp : p.Stable) {suspends : Bool}
    (hinv : ∀ o v, p o v → if suspends then waiting o v else good o v) :
    outageContract.Holds suspends fun c => p (outage c.history) c.view := by
  refine ⟨fun c hc => ?_, ?_⟩
  · have h := hinv _ _ hc
    cases suspends <;> exact h
  · rintro c c' hc (⟨e, hstep⟩ | rfl | rfl)
    · rcases outage_userStep hstep with ⟨hout, hview⟩ | ⟨hstate, hout, hview⟩ | ⟨hout, hview⟩
      · rw [hout, hview]
        exact hc
      · rw [hout, hview]
        exact hp.opens _ _ hc hstate
      · rw [hout, hview]
        exact hp.ends
    · exact hc
    · exact hc

theorem Outage.Good.of_begin (socket : Option Socket) : Outage.Good ⟨socket, []⟩ := by
  constructor <;> simp [Disciplined]

/-- Whatever is learned about the newest attempt. -/
theorem Outage.Good.amend {f : ReconnectAttempt → ReconnectAttempt} {o : Outage} (h : o.Good)
    (hstateless : ∀ a, (f a).stateless = a.stateless) (hsocket : ∀ a, (f a).socket = a.socket)
    (hpresented : ∀ a ∈ o.attempts, ∀ id ∈ (f a).presented, o.socket.map (·.transport.connectionId) = some id) :
    (o.amend f).Good := by
  obtain ⟨socket, attempts⟩ := o
  cases attempts with
  | nil => exact h
  | cons cur rest =>
    refine ⟨h.attempts_le, ⟨by rw [hstateless]; exact h.disciplined.1, h.disciplined.2⟩, ?_, ?_⟩
    · rintro a (_ | ⟨_, ha⟩)
      · exact (hsocket cur).trans (h.socket cur List.mem_cons_self)
      · exact h.socket a (List.mem_cons_of_mem _ ha)
    · rintro a (_ | ⟨_, ha⟩)
      · exact hpresented cur List.mem_cons_self
      · exact h.presented a (List.mem_cons_of_mem _ ha)

namespace OutagePred
variable {o : Option Outage} {v : View} {stateless : Bool} {failure : Option ConnectionError} {attempt : UInt16}

theorem settled.idle (h : idle o v) : settled o v := by
  obtain ⟨rfl, hstate⟩ := h
  exact ⟨fun x hx => (by cases hx), fun hx => (by cases hx), fun hconn => absurd hconn hstate⟩

theorem settled.good (h : settled o v) : good o v := fun x hx => (h.outage x hx).good

theorem due.good (h : due attempt stateless o v) : good o v := fun x hx => (h.outage x hx).1

theorem trying.good (h : trying stateless failure o v) : good o v := fun x hx => (h.outage x hx).1

theorem good_holds : outageContract.Holds false fun c => good (outage c.history) c.view := by
  refine Stable.holds ⟨?_, fun x hx => (by cases hx)⟩ fun _ _ h => h
  rintro o v - - x ⟨⟩
  exact .of_begin v.socket

theorem settled_holds (suspends : Bool) :
    outageContract.Holds suspends fun c => settled (outage c.history) c.view := by
  refine Stable.holds ⟨?_, .idle ⟨rfl, by simp⟩⟩ fun o v h => ?_
  · intro o v h hconn
    refine ⟨?_, fun _ => Or.inl rfl, fun h => (by cases h)⟩
    rintro x ⟨⟩
    exact ⟨.of_begin v.socket, rfl, by simp, by simp [h.connected hconn], by simp [h.connected hconn]⟩
  · cases suspends
    · exact h.good
    · exact fun x hx => ⟨(h.outage x hx).good, (h.outage x hx).socket⟩

theorem idle_holds (suspends : Bool) : outageContract.Holds suspends fun c => idle (outage c.history) c.view := by
  refine Stable.holds ⟨fun o v h hconn => absurd hconn h.2, ⟨rfl, by simp⟩⟩ fun o v h => ?_
  obtain ⟨rfl, -⟩ := h
  cases suspends <;> exact fun x hx => by cases hx

theorem fresh_holds : outageContract.Holds false fun c => fresh (outage c.history) c.view := by
  refine Stable.holds ⟨?_, fun x hx => (by cases hx), fun hx => (by cases hx)⟩ fun o v h x hx => ?_
  · rintro o v - -
    refine ⟨?_, fun _ => Or.inl rfl⟩
    rintro x ⟨⟩
    exact ⟨rfl, rfl⟩
  · obtain ⟨socket, attempts⟩ := x
    obtain rfl : attempts = [] := (h.1 _ hx).1
    exact .of_begin socket

theorem due_holds (suspends : Bool) :
    outageContract.Holds suspends fun c => due attempt stateless (outage c.history) c.view := by
  refine Stable.holds ⟨fun o v h hconn => absurd hconn h.state, ⟨fun x hx => (by cases hx), fun hx => (by cases hx),
    by simp⟩⟩ fun o v h => ?_
  cases suspends
  · exact h.good
  · exact fun x hx => ⟨(h.outage x hx).1, (h.outage x hx).2.1⟩

theorem trying_holds (suspends : Bool) :
    outageContract.Holds suspends fun c => trying stateless failure (outage c.history) c.view := by
  refine Stable.holds ⟨fun o v h hconn => absurd hconn h.state, ⟨fun x hx => (by cases hx), fun hx => (by cases hx),
    by simp⟩⟩ fun o v h => ?_
  cases suspends
  · exact h.good
  · exact fun x hx => ⟨(h.outage x hx).1, (h.outage x hx).2.1⟩

theorem succeeded_holds : outageContract.Holds false fun c => succeeded (outage c.history) c.view :=
  Stable.holds ⟨fun _ _ h hconn => absurd hconn h.state, ⟨fun x hx => (by cases hx), fun hx => (by cases hx), by simp⟩⟩
    fun _ _ h => h.good

end OutagePred

/-! ## The state -/

namespace OutagePred
variable {o : Option Outage} {v : View} {state : ConnectionState}

theorem outageAfter_exchange (h : state = .closing ∨ state = .reconnecting) :
    outageAfter (.exchange v.connState state v.socket) o =
      if v.connState = .connected ∧ state = .reconnecting then some ⟨v.socket, []⟩ else o := by
  rcases h with rfl | rfl <;> cases v.connState <;> rfl

theorem outageAfter_connecting {e : Event} (h : e.connecting) : outageAfter e o = o := by
  cases e with
  | handshake m => cases m <;> first | rfl | cases h
  | _ => first | rfl | cases h

theorem settled.exchange (h : settled o v) (hstate : state = .closing ∨ state = .reconnecting) :
    settled (outageAfter (.exchange v.connState state v.socket) o) { v with connState := state } := by
  have htracked : state = .reconnecting ∨ state = .closing := hstate.symm
  have hconnected : state ≠ .connected := by rcases hstate with rfl | rfl <;> simp
  refine ⟨?_, fun _ => htracked, fun h => absurd h hconnected⟩
  rw [outageAfter_exchange hstate]
  split
  · next hbegin =>
    have hreset := h.connected hbegin.1
    rintro x ⟨⟩
    exact ⟨.of_begin v.socket, rfl, by simp, by simp [hreset], by simp [hreset]⟩
  · intro x hx
    have hx := h.outage x hx
    exact ⟨hx.good, hx.socket, hx.failed, hx.counter, hx.flag⟩

end OutagePred

theorem setState_settled {state : ConnectionState} (hstate : state = .closing ∨ state = .reconnecting) :
    OutageTriple OutagePred.settled (setState state) fun _ => OutagePred.settled := by
  apply setState_triple_of_ne
  · rcases hstate with rfl | rfl <;> simp
  · exact OutagePred.settled_holds false
  · exact OutagePred.settled_holds false
  · exact fun c hc => hc.exchange hstate
  · exact fun c hc => hc

theorem setState_disconnected : OutageTriple OutagePred.good (setState .disconnected) fun _ => OutagePred.settled := by
  apply setState_triple_of_ne
  · simp
  · exact OutagePred.good_holds
  · exact OutagePred.settled_holds false
  · exact fun c _ => .idle ⟨outageAfter_disconnected, by simp [Connection.view, Connection.exchange, Connection.log]⟩
  · exact fun c hc => hc

theorem threadCancelConnection_outage :
    OutageTriple OutagePred.good threadCancelConnection fun _ => OutagePred.settled := by
  have hreset : OutageTriple OutagePred.good resetConnectionState fun _ => OutagePred.good :=
    resetConnectionState_triple OutagePred.good_holds (fun _ hc => hc) (fun _ hc => hc) fun _ hc => hc
  exact hreset.bind fun _ => setState_disconnected

theorem setState_connected {p : OutagePred} (hp : outageContract.Holds false fun c => p (outage c.history) c.view)
    (hstate : ∀ o v, p o v → v.connState ≠ .connected) :
    OutageTriple p (setState .connected) fun _ => OutagePred.settled := by
  apply setState_triple hp OutagePred.fresh_holds OutagePred.fresh_holds
  · exact fun c hc h => absurd h (hstate _ _ hc)
  · intro c hc _
    have hout : outage (c.exchange .connected).history = none := outageAfter_connected
    rw [hout]
    exact ⟨fun x hx => (by cases hx), fun hx => (by cases hx)⟩
  · exact fun c _ h => absurd rfl h
  · exact fun c hc _ => hc
  · intro c hc _
    refine ⟨fun x hx => ?_, hc.2, fun _ => ⟨rfl, rfl⟩⟩
    obtain ⟨socket, attempts⟩ := x
    obtain ⟨rfl, hsocket⟩ := hc.1 _ hx
    exact ⟨.of_begin socket, hsocket, by simp, rfl, rfl⟩

theorem act_settled {f : Connection → Connection} (hview : ∀ c, (f c).view = c.view)
    (hout : ∀ c, outage (f c).history = outage c.history) :
    OutageTriple OutagePred.settled (.act f) fun _ => OutagePred.settled := by
  refine .act (OutagePred.settled_holds false) fun c hc => ?_
  rw [hview, hout]
  exact hc

theorem note_settled {e : Event} (he : ∀ o, outageAfter e o = o) :
    OutageTriple OutagePred.settled (note e) fun _ => OutagePred.settled :=
  act_settled (fun _ => rfl) fun c => he (outage c.history)

theorem setLastError_settled {e : ConnectionError} :
    OutageTriple OutagePred.settled (setLastError e) fun _ => OutagePred.settled :=
  act_settled (fun _ => rfl) fun _ => rfl

theorem drainMessages_settled : OutageTriple OutagePred.settled drainMessages fun _ => OutagePred.settled :=
  act_settled (fun _ => rfl) fun _ => rfl

theorem onFatalError_outage (e : ConnectionError) :
    OutageTriple OutagePred.settled (onFatalError e) fun _ => OutagePred.settled := by
  refine setLastError_settled.bind fun _ => ?_
  refine Triple.bind (Q := fun _ c => OutagePred.settled (outage c.history) c.view)
    (.read (OutagePred.settled_holds false) fun _ hc => hc) fun state => ?_
  refine Triple.bind (Q := fun _ c => OutagePred.settled (outage c.history) c.view)
    (.ask (OutagePred.settled_holds false) fun _ _ _ hc _ => hc) fun shouldReconnect => ?_
  split
  · exact drainMessages_settled.bind fun _ => setState_settled (Or.inr rfl)
  · exact threadCancelConnection_outage.pre fun c hc => hc.good

/-! ## Connecting -/

theorem threadConnect_outage [Host] (url : Text) :
    OutageTriple OutagePred.idle (threadConnect url) fun _ => OutagePred.idle := by
  refine (threadConnect_connects url).triple ?_ ?_ (OutagePred.idle_holds false) (OutagePred.idle_holds true)
  · intro c c' hc hstep
    cases hstep with
    | exchange state h =>
      have hout : outageAfter (.exchange c.connState state c.socket) (outage c.history) = outage c.history := by
        cases state <;> first | (cases c.connState <;> rfl) | cases h
      refine ⟨hout.trans hc.1, ?_⟩
      rintro (rfl : state = .connected)
      cases h
    | log e h => exact ⟨(OutagePred.outageAfter_connecting h).trans hc.1, hc.2⟩
    | _ => exact hc
  · exact fun why c _ hc x hx => by rw [hc.1] at hx; cases hx

theorem outageContract_tolerates : outageContract.Tolerates disconnectWaiter where
  rely _ _ h := h
  inv _ hc x hx := (hc x hx).1
  admits _ _ _ := trivial
  register _ := Or.inr (Or.inl rfl)
  drop _ := Or.inr (Or.inr rfl)

/-- The race around an attempt to connect or to reconnect, which may be dropped. -/
theorem race_outage {α : Type} {p : OutagePred} {q : α → OutagePred} {t : Worker α} {first : Bool}
    (hq : ∀ a, outageContract.Holds false fun c => q a (outage c.history) c.view) (h : OutageTriple p t q) :
    OutageTriple p (t.race disconnectWaiter first) fun r o v => r.elim (OutagePred.good o v) (q · o v) :=
  Triple.race outageContract_tolerates hq (h.whileWaiting fun _ hc x hx => (hc x hx).1)

theorem finishConnect_outage (r : Option (ConnectionResult Unit)) :
    OutageTriple (fun o v => r.elim (OutagePred.good o v) fun _ => OutagePred.idle o v) (finishConnect r)
      fun _ => OutagePred.settled := by
  rcases r with _ | e | ⟨⟩
  · exact threadCancelConnection_outage
  · exact ((onFatalError_outage e).bind fun _ => drainMessages_settled).pre fun c hc => .idle hc
  · have hset := setState_connected (p := OutagePred.idle) (OutagePred.idle_holds false) fun _ _ h => h.2
    exact hset.bind fun _ => setLastError_settled.bind fun _ => drainMessages_settled

theorem disconnectedPass_outage [Host] :
    OutageTriple (fun o v => OutagePred.settled o v ∧ v.connState = .disconnected) disconnectedPass
      fun _ => OutagePred.settled := by
  have hrecv : OutageTriple OutagePred.idle recvRequest fun _ => OutagePred.idle :=
    recvRequest_triple (OutagePred.idle_holds true) fun _ _ _ hc _ => hc
  refine Triple.pre (hrecv.bind fun url => ?_) fun c hc => ?_
  · refine (race_outage (fun _ => OutagePred.idle_holds false) (threadConnect_outage url)).bind fun r => ?_
    exact (finishConnect_outage r).bind fun _ => note_settled fun _ => rfl
  · have hnone : ¬ (outage c.history).isSome := fun hsome => by
      rcases hc.1.tracked hsome with h | h <;> simp [hc.2] at h
    exact ⟨by simpa using hnone, by simp [hc.2]⟩

/-! ## Connected and closing -/

theorem wakeRule_outage : WakeRule outageContract (fun c => OutagePred.settled (outage c.history) c.view)
    fun c => OutagePred.settled (outage c.history) c.view where
  runs := OutagePred.settled_holds false
  waits := OutagePred.settled_holds true
  empty := Or.inr fun _ hc => hc.good
  closing := setState_settled (Or.inl rfl)
  fatal := onFatalError_outage
  lastError _ _ hc := hc
  dataCallback _ _ hc := hc
  weaken _ hc := hc

theorem wakeReady_outage {r : Answer} {c c' : Connection} {wake : Wake} (h : wakeReady r c = some (wake, c')) :
    outage c'.history = outage c.history := by
  obtain ⟨m, chan, -, -, rfl⟩ | ⟨-, rfl | rfl⟩ := wakeReady_cases h <;> rfl

theorem connectedPass_outage : OutageTriple OutagePred.settled connectedPass fun _ => OutagePred.settled := by
  have hready : ∀ r c wake c', OutagePred.settled (outage c.history) c.view → wakeReady r c = some (wake, c') →
      OutagePred.settled (outage c'.history) c'.view := by
    intro r c wake c' hc hready
    rw [wakeReady_outage hready, wakeReady_view hready]
    exact hc
  refine connectedPass_triple (P := fun c => OutagePred.settled (outage c.history) c.view)
    (G := fun c => OutagePred.settled (outage c.history) c.view) ?_ wakeRule_outage.closing wakeRule_outage.runs
    wakeRule_outage.empty wakeRule_outage.waits (fun _ hc => hc) hready (fun r c wake c' hc _ => hready r c wake c' hc)
    fun wake => wakeRule_outage.onWake fun _ _ => note_settled fun _ => rfl
  exact loadDisconnectReq_triple (OutagePred.settled_holds false) (fun _ hc _ => hc) fun _ hc _ => hc

theorem closingPass_outage : OutageTriple OutagePred.settled closingPass fun _ => OutagePred.settled :=
  closingPass_triple wakeRule_outage.runs wakeRule_outage.waits wakeRule_outage.empty (fun _ hc => hc)
    onFatalError_outage (threadCancelConnection_outage.pre fun _ hc => hc.good)

/-! ## Attempts -/

namespace OutagePred
variable {o : Option Outage} {v : View} {stateless : Bool} {failure : Option ConnectionError} {attempt : UInt16}

/-- The previous socket is read, and its id is about to be presented. -/
def presents (stateless : Bool) (s : Socket) : OutagePred :=
  fun o v => trying stateless none o v ∧ ∀ x, o = some x → x.socket = some s

theorem presents_holds {s : Socket} :
    outageContract.Holds false fun c => presents stateless s (outage c.history) c.view := by
  refine Stable.holds ⟨fun o v h hconn => absurd hconn h.1.state, ?_⟩ fun _ _ h => h.1.good
  exact ⟨⟨fun x hx => (by cases hx), fun hx => (by cases hx), by simp⟩, fun x hx => (by cases hx)⟩

/-- The attempt that is due begins. -/
theorem due.begin (h : due attempt stateless o v) (hattempt : attempt.toNat < 7) :
    trying stateless none (outageAfter (.tryReconnect stateless v.socket) o) v := by
  refine ⟨?_, fun hsome => h.tracked (by simpa [outageAfter] using hsome), h.state⟩
  intro x hx
  obtain ⟨y, rfl, rfl⟩ := Option.map_eq_some_iff.mp hx
  obtain ⟨hgood, hsocket, hfailed, hcounter, hflag, rfl, rfl⟩ := h.outage y rfl
  refine ⟨?_, hsocket, _, y.attempts, rfl, rfl, rfl, hfailed, hcounter, hflag⟩
  refine ⟨?_, ?_, ?_, ?_⟩
  · simp only [List.length_cons]
    omega
  · exact ⟨by rw [hflag], hgood.disciplined⟩
  · rintro a (- | ⟨-, ha⟩)
    · exact hsocket
    · exact hgood.socket a ha
  · rintro a (- | ⟨-, ha⟩)
    · simp
    · exact hgood.presented a ha

theorem presents.present {s : Socket} (h : presents stateless s o v) :
    trying stateless none (outageAfter (.handshake (.clientReconnect ⟨s.transport.connectionId⟩)) o) v := by
  refine ⟨?_, fun hsome => h.1.tracked (by simpa [outageAfter] using hsome), h.1.state⟩
  intro x hx
  obtain ⟨y, rfl, rfl⟩ := Option.map_eq_some_iff.mp hx
  obtain ⟨hgood, hsocket, cur, rest, hattempts, hcur⟩ := h.1.outage y rfl
  have hamend : (y.amend fun a => { a with presented := s.transport.connectionId :: a.presented }).Good := by
    refine hgood.amend (fun _ => rfl) (fun _ => rfl) fun a ha id hid => ?_
    rcases List.mem_cons.mp hid with rfl | hid
    · simp [h.2 _ rfl]
    · exact hgood.presented a ha id hid
  obtain ⟨socket, attempts⟩ := y
  obtain rfl : attempts = cur :: rest := hattempts
  exact ⟨hamend, hsocket, _, rest, rfl, hcur⟩

theorem trying.fail {e : ConnectionError} (h : trying stateless none o v) :
    trying stateless (some e) (outageAfter (.reconnectFailed stateless e) o) v := by
  refine ⟨?_, fun hsome => h.tracked (by simpa [outageAfter] using hsome), h.state⟩
  intro x hx
  obtain ⟨y, rfl, rfl⟩ := Option.map_eq_some_iff.mp hx
  obtain ⟨hgood, hsocket, cur, rest, hattempts, hstateless, -, hrest⟩ := h.outage y rfl
  have hamend : (y.amend fun a => { a with failure := some e }).Good :=
    hgood.amend (fun _ => rfl) (fun _ => rfl) hgood.presented
  obtain ⟨socket, attempts⟩ := y
  obtain rfl : attempts = cur :: rest := hattempts
  exact ⟨hamend, hsocket, _, rest, rfl, hstateless, rfl, hrest⟩

/-- After a failure, the flag must say whether an attempt was rejected. -/
theorem trying.settle {e : ConnectionError} (h : trying stateless (some e) o v) (flag : Bool)
    (hflag : flag = (v.data.tryStatelessReconnect || !stateless && isReconnectFailed e)) :
    settled o { v with data := { v.data with tryStatelessReconnect := flag } } := by
  refine ⟨?_, h.tracked, fun hconn => absurd hconn h.state⟩
  intro x hx
  obtain ⟨hgood, hsocket, cur, rest, hattempts, rfl, hfailure, hrest, hcounter, hold⟩ := h.outage x hx
  refine ⟨hgood, hsocket, ?_, ?_, ?_⟩
  · rw [hattempts]
    rintro a (- | ⟨-, ha⟩)
    · simp [hfailure]
    · exact hrest a ha
  · simpa [hattempts] using hcounter
  · rw [hattempts, hflag, hold, List.any_cons, ReconnectAttempt.rejected, hfailure, Bool.or_comm]
    rfl

end OutagePred

theorem outageAttempt (stateless : Bool) : AttemptRule outageContract
    (fun c => OutagePred.trying stateless none (outage c.history) c.view)
    (fun s c => OutagePred.presents stateless s (outage c.history) c.view)
    (fun _ c => OutagePred.succeeded (outage c.history) c.view)
    fun c => OutagePred.succeeded (outage c.history) c.view where
  runs := OutagePred.trying_holds false
  waits := OutagePred.trying_holds true
  moved _ hc := hc.good
  empty := Or.inr fun _ hc => hc.good
  stored := Or.inr fun _ hc => hc.good
  options _ _ hc := hc
  start _ _ hc := hc
  holds_read _ := OutagePred.presents_holds
  read _ _ hc hs := ⟨hc, fun x hx => (hc.outage x hx).2.1.symm.trans hs⟩
  present _ _ hc := hc.present
  holds_takeOver _ := OutagePred.succeeded_holds
  takeOver _ _ _ hc _ := ⟨hc.good, hc.tracked, hc.state⟩
  install _ _ hc := ⟨hc.good, hc.tracked, hc.state⟩
  fresh _ _ hc := ⟨hc.good, hc.tracked, hc.state⟩
  holds_installed := OutagePred.succeeded_holds
  stateReset _ hc := hc

theorem reconnectFut_outage {attempt : UInt16} (hattempt : attempt.toNat < 7) (stateless : Bool) :
    OutageTriple (OutagePred.due attempt stateless) (reconnectFut stateless) fun _ => OutagePred.settled := by
  refine (outageAttempt stateless).reconnectFut
    (E := fun e c => OutagePred.trying stateless (some e) (outage c.history) c.view) (OutagePred.due_holds false)
    (fun c hc => hc.begin hattempt) ?_ (fun c e hc => hc.fail)
    (fun _ => OutagePred.trying_holds false) ?_ ?_
  · exact setState_connected OutagePred.succeeded_holds fun _ _ h => h.state
  · rintro c e hc hrejected rfl
    exact hc.settle true (by simp [hrejected])
  · intro e hkept
    refine .await (OutagePred.trying_holds true) fun _ _ c hc _ => ?_
    exact hc.settle c.data.tryStatelessReconnect (by rw [Bool.and_comm, hkept, Bool.or_false, Connection.view])

theorem reconnecting_holds : outageContract.Holds false fun c =>
    OutagePred.settled (outage c.history) c.view ∧ c.view.connState ≠ .connected := by
  refine OutagePred.Stable.holds (p := fun o v => OutagePred.settled o v ∧ v.connState ≠ .connected)
    ⟨fun o v h hconn => absurd hconn h.2, ?_⟩ fun _ _ h => h.1.good
  exact ⟨.idle ⟨rfl, by simp⟩, by simp⟩

/-- The counter cannot wrap around: it is at most 6 before. -/
theorem OutagePred.settled.due {o : Option Outage} {v : View} (h : settled o v) (hstate : v.connState ≠ .connected) :
    due (v.data.reconnectAttempt + 1) v.data.tryStatelessReconnect o
      { v with data := { v.data with reconnectAttempt := v.data.reconnectAttempt + 1 } } := by
  refine ⟨fun x hx => ?_, h.tracked, hstate⟩
  have hx := h.outage x hx
  have hle := hx.good.attempts_le
  refine ⟨hx.good, hx.socket, hx.failed, ?_, hx.flag, rfl, rfl⟩
  rw [UInt16.toNat_add, hx.counter]
  exact Nat.mod_eq_of_lt (by simp; omega)

theorem debounce_outage {attempt : UInt16} {stateless : Bool} :
    OutageTriple (OutagePred.due attempt stateless) debounce fun _ => OutagePred.due attempt stateless :=
  debounce_triple outageContract_tolerates OutagePred.due_holds fun _ hc => hc

theorem reconnectingPass_outage :
    OutageTriple (fun o v => OutagePred.settled o v ∧ v.connState = .reconnecting) reconnectingPass
      fun _ => OutagePred.settled := by
  refine reconnectingPass_triple (G := fun c => OutagePred.good (outage c.history) c.view)
    (P := fun c => OutagePred.settled (outage c.history) c.view ∧ c.view.connState ≠ .connected)
    (N := fun attempt stateless c => OutagePred.due attempt stateless (outage c.history) c.view) ?_
    threadCancelConnection_outage (.update reconnecting_holds fun c hc => hc.1.due hc.2) (fun _ _ c hc => hc.good)
    (fun _ => debounce_outage) (fun _ _ => OutagePred.due_holds false) (fun _ _ _ hc => hc)
    (fun attempt stateless hlt =>
      race_outage (fun _ => OutagePred.settled_holds false) (reconnectFut_outage hlt stateless))
    (fun _ hc => hc) (note_settled fun _ => rfl)
  exact (loadDisconnectReq_triple reconnecting_holds (fun _ hc _ => hc.1.good) fun _ hc _ => hc).pre fun c hc =>
    ⟨hc.1, by simp [hc.2]⟩

theorem workerThreadLoop_outage [Host] :
    OutageTriple OutagePred.settled workerThreadLoop fun _ => OutagePred.settled := by
  have hread : OutageTriple OutagePred.settled (.read (·.connState))
      fun state o v => OutagePred.settled o v ∧ v.connState = state :=
    .read (OutagePred.settled_holds false) fun _ hc => ⟨hc, rfl⟩
  refine hread.bind fun state => ?_
  split
  · exact disconnectedPass_outage
  iterate 3 exact setState_disconnected.pre fun c hc => hc.1.good
  · exact connectedPass_outage.pre fun c hc => hc.1
  · exact reconnectingPass_outage
  · exact closingPass_outage.pre fun c hc => hc.1

/-- Every outage of every run: at most six attempts, a stateless one exactly after a rejected one, and each of them with
the socket of before the outage, which is also what the worker is left with whenever it waits or begins a pass. -/
theorem reconnect_discipline [Host] {c : ConnectionConfig} (h : Running (fun _ _ => True) c) {o : Outage}
    (ho : outage c.shared.history = some o) :
    o.Good ∧ (c.task.suspends = true ∨ c.task = .ret () → c.shared.socket = o.socket) := by
  have hsafe : Safe outageContract (fun _ c => OutagePred.settled (outage c.history) c.view) c.task c.shared := by
    refine Triple.invariant workerThreadLoop_outage (OutagePred.settled_holds false).stable (fun _ _ _ => trivial)
      (fun c e c' _ hstep => Or.inl ⟨e, hstep⟩) ?_ h
    exact .idle ⟨rfl, by simp [Connection.view]⟩
  have hwaiting : c.task.suspends = true → OutagePred.waiting (outage c.shared.history) c.shared.view :=
    fun hsuspends => hsafe.of_suspends hsuspends
  have hret : c.task = .ret () → OutagePred.settled (outage c.shared.history) c.shared.view := fun hret => by
    rw [hret] at hsafe
    exact hsafe
  have hgood : OutagePred.good (outage c.shared.history) c.shared.view :=
    hsafe.always (fun _ hc => hc.good) (fun _ _ hc => hc) fun suspends c hc => by
      cases suspends with
      | true => exact fun x hx => (hc x hx).1
      | false => exact hc
  refine ⟨hgood o ho, fun hpause => ?_⟩
  · rcases hpause with hsuspends | htask
    · exact (hwaiting hsuspends o ho).2
    · exact ((hret htask).outage o ho).socket

/-- A connected worker loses its connection, and begins a pass. -/
def lostEvents : List ConnectionEvent :=
  List.replicate 5 (.own .ready) ++ [.own .pending, .own (.incoming (.error (.custom .closed)))] ++
    List.replicate 2 (.own .ready) ++ [.own (.flag true)] ++ List.replicate 3 (.own .ready)

/-- An attempt to reconnect that the server rejects. -/
def rejectedEvents : List ConnectionEvent :=
  List.replicate 11 (.own .ready) ++ [.own (.result (.ok ())), .own (.elapsed 0), .own (.elapsed 0)] ++
    List.replicate 2 (.own .ready) ++ [.own (.handshake (some (.ok .reconnectFailure)))] ++
    List.replicate 4 (.own .ready)

/-- A second attempt begins. -/
def retriedEvents : List ConnectionEvent := List.replicate 10 (.own .ready)

theorem reconnect_discipline_rejected : ∃ c o, @runConnection plainHost (callEvents (.connect tcpUrl) ++
    attemptEvents ++ acceptEvents ++ connectedEvents ++ lostEvents ++ rejectedEvents ++ retriedEvents) = some c ∧
    outage c.shared.history = some o ∧ o.attempts.map (fun a => (a.stateless, a.rejected)) =
      [(true, false), (false, true)] ∧ o.Good := by
  obtain ⟨c, hrun, hout⟩ := Option.map_eq_some_iff.mp (show (@runConnection plainHost (callEvents (.connect tcpUrl) ++
    attemptEvents ++ acceptEvents ++ connectedEvents ++ lostEvents ++ rejectedEvents ++ retriedEvents)).map (fun c =>
      (outage c.shared.history).map fun o => o.attempts.map fun a => (a.stateless, a.rejected)) =
        some (some [(true, false), (false, true)]) by decide +kernel)
  obtain ⟨o, ho, hattempts⟩ := Option.map_eq_some_iff.mp hout
  refine ⟨c, o, hrun, ho, hattempts, ?_⟩
  exact (@reconnect_discipline plainHost c (@Running.of_run plainHost _ _ _ (fun _ _ _ => trivial) hrun) o ho).1

end Qunet
