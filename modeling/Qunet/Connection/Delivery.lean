import Qunet.Connection.Rules

/-!
# Accepted messages are handed to the socket

Users push to the channel as soon as the state reads `Connected`; the worker takes from it, and drains it at several
transitions.

* `Ledger`, `ledger` : what became of the messages since the connection became connected, as its history tells;
* `Ledger.Balanced` : what was queued at first or accepted since has been taken or is queued, in this order;
* `acceptsEarly` : a message is accepted while the worker is not done with the request that connected it;
* `connectedPass_books`, `finishConnect_books`, … : one rule for each function that takes part;
* **`accepted_delivered`** : every run without such messages, simulated drops included.
-/

namespace Qunet
open Lib

/-! ## The ledger -/

/-- The messages of a history: what is in the channel, and for the time since the connection became connected what was
in the channel at first, what was accepted, what the worker took and what it handed to the socket. -/
structure Ledger where
  connected : Bool := false
  queue : List OutgoingMessage := []
  stale : List OutgoingMessage := []
  accepted : List OutgoingMessage := []
  received : List OutgoingMessage := []
  handed : List OutgoingMessage := []

namespace Ledger

def accept (m : OutgoingMessage) (l : Ledger) : Ledger :=
  { l with queue := l.queue ++ [m], accepted := if l.connected then l.accepted ++ [m] else l.accepted }

def receive (m : OutgoingMessage) (l : Ledger) : Ledger :=
  { l with queue := l.queue.tail, received := l.received ++ [m] }

/-- Old messages are not promised to anybody. -/
def drain (l : Ledger) : Ledger := { l with queue := [], stale := [] }

/-- The connection becomes connected. -/
def begin (l : Ledger) : Ledger := { connected := true, queue := l.queue, stale := l.queue }

/-- It is no longer connected. -/
def leave (l : Ledger) : Ledger := { l with connected := false }

def exchange (state : ConnectionState) (l : Ledger) : Ledger :=
  if state = .connected then (if l.connected then l else l.begin) else l.leave

def after : Event → Ledger → Ledger
  | .accepted m, l => l.accept m
  | .received m, l => l.receive m
  | .handed m, l => { l with handed := l.handed ++ [m] }
  | .drained, l => l.drain
  | .exchange _ state _, l => l.exchange state
  | _, l => l

/-- Nothing is lost, and the order is kept. -/
def Balanced (l : Ledger) : Prop := l.received ++ l.queue = l.stale ++ l.accepted

theorem Balanced.accept {l : Ledger} (h : l.Balanced) (hconn : l.connected = true) (m : OutgoingMessage) :
    (l.accept m).Balanced := by
  unfold Balanced at h ⊢
  simp only [Ledger.accept, hconn, if_true]
  rw [← List.append_assoc, ← List.append_assoc, h]

theorem Balanced.receive {l : Ledger} (h : l.Balanced) {m : OutgoingMessage} {rest : List OutgoingMessage}
    (hqueue : l.queue = m :: rest) : (l.receive m).Balanced := by
  unfold Balanced at h ⊢
  rw [hqueue] at h
  simpa [Ledger.receive, hqueue] using h

theorem balanced_begin (l : Ledger) : l.begin.Balanced := by simp [Balanced, begin]

end Ledger

def ledger : List Event → Ledger
  | [] => {}
  | e :: history => (ledger history).after e

/-- The worker has taken a request, and not drained the channel since. -/
def finishing : List Event → Bool
  | [] => false
  | .dequeued _ :: _ => true
  | .drained :: _ => false
  | .processed :: _ => false
  | _ :: history => finishing history

/-! ## The contract -/

/-- A message is accepted after the connect request has made the state `Connected`, but before the worker has drained
the channel. -/
def acceptsEarly (c : Connection) : UserEvent → Prop
  | .finish i => ∃ m, c.calls[i]? = some (.sendMsgToThread m) ∧ (c.msgChan.trySend m).isSome ∧
      c.connState = .connected ∧ finishing c.history = true
  | _ => False

abbrev LedgerPred := Ledger → Bool → Prop

/-- The ledger tells the state and the contents of the channel. -/
structure Ledger.Tracks (l : Ledger) (state : ConnectionState) (queued : List OutgoingMessage) : Prop where
  connected : l.connected = decide (state = .connected)
  queue : l.queue = queued

/-- The predicate on a connection. -/
def Books (p : LedgerPred) (c : Connection) : Prop :=
  (ledger c.history).Tracks c.connState c.msgChan.items ∧ p (ledger c.history) (finishing c.history)

namespace LedgerPred

/-- Between two messages. -/
def settled : LedgerPred := fun l _ => l.connected = true → l.Balanced ∧ l.handed = l.received

/-- A message was taken and not handed to the socket yet. -/
def sending (m : OutgoingMessage) : LedgerPred :=
  fun l _ => l.connected = true → l.Balanced ∧ l.handed ++ [m] = l.received

def any : LedgerPred := fun _ _ => True

def idle : LedgerPred := fun l _ => l.connected = false

/-- The worker connects. -/
def connecting : LedgerPred := fun l finishing => l.connected = false ∧ finishing = true

/-- The state is `Connected`, and the channel is still to be drained. -/
def early : LedgerPred := fun l finishing => l.connected = true →
  finishing = true ∧ l.accepted = [] ∧ l.received = [] ∧ l.handed = []

/-- What the others leave of a predicate. -/
structure Stable (p : LedgerPred) : Prop where
  accepts : ∀ l finishing m, p l finishing → (l.connected = true → finishing = false) → p (l.accept m) finishing
  reconnects : ∀ l finishing, p l finishing → l.connected = true → p (l.drain.leave) false
  ends : ∀ l finishing, p l finishing → p l.leave finishing

theorem stable_any : any.Stable := ⟨fun _ _ _ _ _ => trivial, fun _ _ _ _ => trivial, fun _ _ _ => trivial⟩

theorem stable_idle : idle.Stable := ⟨fun _ _ _ h _ => h, fun _ _ _ _ => rfl, fun _ _ _ => rfl⟩

theorem stable_settled : settled.Stable := by
  refine ⟨fun l finishing m h _ hconn => ⟨(h hconn).1.accept hconn m, (h hconn).2⟩, fun _ _ _ _ h => ?_,
    fun _ _ _ h => ?_⟩
  · cases h
  · cases h

theorem stable_sending {m : OutgoingMessage} : (sending m).Stable := by
  refine ⟨fun l finishing m h _ hconn => ⟨(h hconn).1.accept hconn m, (h hconn).2⟩, fun _ _ _ _ h => ?_,
    fun _ _ _ h => ?_⟩
  · cases h
  · cases h

theorem stable_connecting : connecting.Stable :=
  ⟨fun _ _ _ h _ => h, fun _ _ h hconn => by simp [h.1] at hconn, fun _ _ h => ⟨rfl, h.2⟩⟩

theorem stable_early : early.Stable := by
  refine ⟨fun l finishing m h hnot hconn => ?_, fun _ _ _ _ h => (by cases h), fun _ _ _ h => (by cases h)⟩
  have hfinishing := (h hconn).1
  rw [hnot hconn] at hfinishing
  cases hfinishing

end LedgerPred

def deliveryContract : Contract Connection Answer Abort where
  rely _ c c' := (∃ e, ¬ acceptsEarly c e ∧ userStep e c = some c') ∨ c' = disconnectWaiter.register c ∨
    c' = disconnectWaiter.drop c
  admits _ _ _ := True
  inv suspends c := suspends = true → Books .settled c
  aborts _ _ := True

theorem books_userStep {p : LedgerPred} (hp : p.Stable) {e : UserEvent} {c c' : Connection} (hc : Books p c)
    (hearly : ¬ acceptsEarly c e) (h : userStep e c = some c') : Books p c' := by
  obtain ⟨htracks, hledger⟩ := hc
  cases userStep_change h with
  | @accepted i m chan calls hcall hsend =>
    have hnot : (ledger c.history).connected = true → finishing c.history = false := by
      intro hconn
      rw [htracks.connected, decide_eq_true_eq] at hconn
      by_contra hfinishing
      exact hearly ⟨m, hcall, by rw [hsend]; rfl, hconn, by simpa using hfinishing⟩
    refine ⟨⟨htracks.connected, ?_⟩, hp.accepts _ _ m hledger hnot⟩
    exact (congrArg (· ++ [m]) htracks.queue).trans (Channel.trySend_items hsend).symm
  | drop b =>
    by_cases hdrop : c.connState = .connected ∧ b = true
    · obtain ⟨hconn, rfl⟩ := hdrop
      rw [dropped_connected hconn]
      exact ⟨⟨rfl, rfl⟩, hp.reconnects _ _ hledger (by rw [htracks.connected, hconn]; rfl)⟩
    · rw [dropped_disconnected hdrop]
      have hleave := hp.ends _ _ hledger
      unfold Books
      dsimp only
      split
      · exact ⟨⟨rfl, htracks.queue⟩, hleave⟩
      · exact ⟨⟨rfl, htracks.queue⟩, hleave⟩
  | _ => exact ⟨⟨htracks.connected, htracks.queue⟩, hledger⟩

theorem LedgerPred.Stable.holds {p : LedgerPred} (hp : p.Stable) : deliveryContract.Holds false (Books p) := by
  refine ⟨fun c hc hwait => (by cases hwait), ?_⟩
  rintro c c' hc (⟨e, hearly, hstep⟩ | rfl | rfl)
  · exact books_userStep hp hc hearly hstep
  · exact hc
  · exact hc

theorem LedgerPred.Stable.waits {p : LedgerPred} (hp : p.Stable) (hwait : ∀ l b, p l b → settled l b) :
    deliveryContract.Holds true (Books p) :=
  ⟨fun _ hc _ => ⟨hc.1, hwait _ _ hc.2⟩, hp.holds.stable⟩

/-! ## Steps -/

/-- An event that says nothing about messages. -/
def Event.Silent (e : Event) : Prop :=
  (∀ l : Ledger, l.after e = l) ∧ ∀ history, finishing (e :: history) = finishing history

section
variable {p q : LedgerPred} {c : Connection} {state : ConnectionState}

theorem Books.mono (hc : Books p c) (h : ∀ l b, p l b → q l b) : Books q c := ⟨hc.1, h _ _ hc.2⟩

theorem Books.log (hc : Books p c) {e : Event} (he : e.Silent) : Books p (c.log e) := by
  have hledger : ledger (c.log e).history = ledger c.history := he.1 _
  have hfinishing : finishing (c.log e).history = finishing c.history := he.2 _
  unfold Books
  rw [hledger, hfinishing]
  exact hc

theorem Books.exchange (hc : Books p c) (h : ∀ l b, p l b → q (l.exchange state) b) : Books q (c.exchange state) := by
  refine ⟨⟨?_, ?_⟩, h _ _ hc.2⟩
  · show ((ledger c.history).exchange state).connected = decide (state = .connected)
    unfold Ledger.exchange
    split
    · next hstate => split <;> simp [*, Ledger.begin]
    · next hstate => simp [hstate, Ledger.leave]
  · show ((ledger c.history).exchange state).queue = c.msgChan.items
    rw [← hc.1.queue]
    unfold Ledger.exchange
    split
    · split <;> rfl
    · rfl

theorem Books.drain (hc : Books p c) (h : ∀ l b, p l b → q l.drain false) :
    Books q ({ c with msgChan := .empty }.log .drained) := ⟨⟨hc.1.connected, rfl⟩, h _ _ hc.2⟩

theorem exchange_idle (hstate : state ≠ .connected) (l : Ledger) : (l.exchange state).connected = false := by
  simp [Ledger.exchange, hstate, Ledger.leave]

theorem act_books {f : Connection → Connection} (hp : p.Stable) (hf : ∀ c, Books p c → Books q (f c)) :
    Triple deliveryContract (Books p) (.act f) fun _ => Books q :=
  .act hp.holds hf

theorem note_books {e : Event} (hp : p.Stable) (he : e.Silent) :
    Triple deliveryContract (Books p) (note e) fun _ => Books p :=
  act_books hp fun _ hc => hc.log he

theorem drainMessages_books (hp : p.Stable) (h : ∀ l b, p l b → q l.drain false) :
    Triple deliveryContract (Books p) drainMessages fun _ => Books q :=
  act_books hp fun _ hc => hc.drain h

/-- A state other than `Connected`. -/
theorem setState_idle (hp : p.Stable) (hstate : state ≠ .connected) :
    Triple deliveryContract (Books p) (setState state) fun _ => Books .idle :=
  setState_triple_of_ne hstate hp.holds LedgerPred.stable_idle.holds
    (fun _ hc => hc.exchange fun l _ _ => exchange_idle hstate l) fun _ hc => hc.log ⟨fun _ => rfl, fun _ => rfl⟩

/-- The connection becomes connected: what is in the channel now was not accepted since. -/
theorem setState_begin (hp : p.Stable) (hq : q.Stable) (hidle : ∀ l b, p l b → l.connected = false)
    (h : ∀ l b, p l b → q l.begin b) : Triple deliveryContract (Books p) (setState .connected) fun _ => Books q := by
  have hexchange : ∀ c, Books p c → Books q (c.exchange .connected) := fun c hc => hc.exchange fun l b hl => by
    have hbegin : l.exchange .connected = l.begin := by simp [Ledger.exchange, hidle l b hl]
    rw [hbegin]
    exact h l b hl
  exact setState_triple hp.holds hq.holds hq.holds (fun c hc _ => hexchange c hc) (fun c hc _ => hexchange c hc)
    (fun _ _ h => absurd rfl h) (fun _ hc _ => hc.log ⟨fun _ => rfl, fun _ => rfl⟩) fun _ hc _ => hc

theorem threadCancelConnection_books (hp : p.Stable) :
    Triple deliveryContract (Books p) threadCancelConnection fun _ => Books .idle :=
  (resetConnectionState_triple hp.holds (fun _ hc => hc) (fun _ hc => hc) fun _ hc => hc).bind
    fun _ => setState_idle hp (by simp)

theorem onFatalError_books (hp : p.Stable) (e : ConnectionError) :
    Triple deliveryContract (Books p) (onFatalError e) fun _ => Books .idle := by
  refine Triple.bind (act_books hp fun _ hc => hc) fun _ => ?_
  refine Triple.bind (Q := fun _ => Books p) (.read hp.holds fun _ hc => hc) fun state => ?_
  refine Triple.bind (Q := fun _ => Books p) (.ask hp.holds fun _ _ _ hc _ => hc) fun shouldReconnect => ?_
  split
  · have hdrain := drainMessages_books (q := .any) hp fun _ _ _ => trivial
    exact hdrain.bind fun _ => setState_idle LedgerPred.stable_any (by simp)
  · exact threadCancelConnection_books hp

end

theorem LedgerPred.settled_of_idle {l : Ledger} {b : Bool} (h : idle l b) : settled l b := fun hconn => by
  rw [idle] at h
  simp [h] at hconn

theorem LedgerPred.settled_begin (l : Ledger) (b : Bool) : settled l.begin b :=
  fun _ => ⟨l.balanced_begin, rfl⟩

/-! ## Connecting -/

theorem ConnectStep.books {c c' : Connection} (hc : Books .connecting c) (h : ConnectStep c c') :
    Books .connecting c' := by
  cases h with
  | log e he =>
    refine hc.log ?_
    cases e <;> first | exact ⟨fun _ => rfl, fun _ => rfl⟩ | cases he
  | exchange state hstate =>
    have hne : state ≠ .connected := by
      rintro rfl
      cases hstate
    exact hc.exchange fun l b hl => ⟨exchange_idle hne l, hl.2⟩
  | _ => exact hc

theorem finishConnect_books (r : Option (ConnectionResult Unit)) :
    Triple deliveryContract (fun c => r.elim (Books .settled c) fun _ => Books .connecting c) (finishConnect r)
      fun _ => Books .settled := by
  have hsettle : ∀ c, Books .idle c → Books .settled c := fun _ hc => hc.mono fun _ _ => LedgerPred.settled_of_idle
  rcases r with _ | e | ⟨⟩
  · exact (threadCancelConnection_books LedgerPred.stable_settled).post fun _ => hsettle
  · have hdrain := drainMessages_books (q := .idle) LedgerPred.stable_idle fun _ _ h => h
    exact ((onFatalError_books LedgerPred.stable_connecting e).bind fun _ => hdrain).post fun _ => hsettle
  · have hset := setState_begin LedgerPred.stable_connecting LedgerPred.stable_early (fun _ _ h => h.1)
      fun l b h _ => ⟨h.2, rfl, rfl, rfl⟩
    have herror : Triple deliveryContract (Books .early) (setLastError (.other .success)) fun _ => Books .early :=
      act_books LedgerPred.stable_early fun _ hc => hc
    have hdrain := drainMessages_books (q := .settled) LedgerPred.stable_early fun l b h hconn => by
      obtain ⟨-, haccepted, hreceived, hhanded⟩ := h hconn
      exact ⟨by simp [Ledger.Balanced, Ledger.drain, haccepted, hreceived], by simp [Ledger.drain, hreceived, hhanded]⟩
    exact hset.bind fun _ => herror.bind fun _ => hdrain

theorem deliveryContract_tolerates : deliveryContract.Tolerates disconnectWaiter where
  rely _ _ h := h
  inv _ _ h := by cases h
  admits _ _ _ := trivial
  register _ := Or.inr (Or.inl rfl)
  drop _ := Or.inr (Or.inr rfl)

theorem race_books {α : Type} {p q : LedgerPred} (hq : q.Stable) {t : Worker α} {first : Bool}
    (h : Triple deliveryContract (Books p) t fun _ => Books q) :
    Triple deliveryContract (Books p) (t.race disconnectWaiter first)
      fun r c => r.elim (Books .settled c) fun _ => Books q c :=
  Triple.race deliveryContract_tolerates (fun _ => hq.holds) (h.whileWaiting fun _ hc => hc rfl)

theorem disconnectedPass_books [Host] :
    Triple deliveryContract (Books .idle) disconnectedPass fun _ => Books .settled := by
  have hrecv : Triple deliveryContract (Books .idle) recvRequest fun _ => Books .connecting :=
    recvRequest_triple (LedgerPred.stable_idle.waits fun _ _ => LedgerPred.settled_of_idle) fun c url chan hc _ =>
      ⟨⟨hc.1.connected, hc.1.queue⟩, hc.2, rfl⟩
  refine hrecv.bind fun url => ?_
  have hattempt : Triple deliveryContract (Books .connecting) (threadConnect url) fun _ => Books .connecting :=
    (threadConnect_connects url).triple (fun _ _ hc hstep => hstep.books hc) (fun _ _ _ _ => trivial)
      LedgerPred.stable_connecting.holds
      (LedgerPred.stable_connecting.waits fun _ _ h => LedgerPred.settled_of_idle h.1)
  refine (race_books LedgerPred.stable_connecting hattempt).bind fun r => (finishConnect_books r).bind fun _ => ?_
  exact act_books LedgerPred.stable_settled fun c hc => ⟨⟨hc.1.connected, hc.1.queue⟩, hc.2⟩

/-! ## Connected and closing -/

theorem settled_holds (suspends : Bool) : deliveryContract.Holds suspends (Books .settled) := by
  cases suspends with
  | true => exact LedgerPred.stable_settled.waits fun _ _ h => h
  | false => exact LedgerPred.stable_settled.holds

theorem Books.of_idle {c : Connection} (hc : Books .idle c) : Books .settled c :=
  hc.mono fun _ _ => LedgerPred.settled_of_idle

theorem wakeRule_books : WakeRule deliveryContract (Books .settled) (Books .settled) where
  runs := settled_holds false
  waits := settled_holds true
  empty := Or.inr fun _ _ => trivial
  closing := (setState_idle LedgerPred.stable_settled (by simp)).post fun _ _ hc => hc.of_idle
  fatal e := (onFatalError_books LedgerPred.stable_settled e).post fun _ _ hc => hc.of_idle
  lastError _ _ hc := hc
  dataCallback _ _ hc := hc.log ⟨fun _ => rfl, fun _ => rfl⟩
  weaken _ hc := hc

/-- What is known when a `select` has ended. -/
def LedgerPred.woken : Wake → LedgerPred
  | .message m => sending m
  | _ => settled

theorem wakeReady_books {r : Answer} {c c' : Connection} {wake : Wake} (hc : Books .settled c)
    (h : wakeReady r c = some (wake, c')) : Books (.woken wake) c' := by
  rcases wakeReady_cases h with ⟨m, chan, hrecv, rfl, rfl⟩ | ⟨hno, hsame⟩
  · have hqueue : (ledger c.history).queue = m :: chan.items := hc.1.queue.trans (Channel.recv_items hrecv)
    refine ⟨⟨hc.1.connected, ?_⟩, fun hconn => ?_⟩
    · show (ledger c.history).queue.tail = chan.items
      rw [hqueue, List.tail_cons]
    · obtain ⟨hbalanced, hhanded⟩ := hc.2 hconn
      exact ⟨hbalanced.receive hqueue, congrArg (· ++ [m]) hhanded⟩
  · have hwoken : LedgerPred.woken wake = .settled := by
      cases wake <;> first | rfl | exact absurd rfl (hno _)
    rw [hwoken]
    rcases hsame with rfl | rfl <;> exact hc

theorem onWake_books (wake : Wake) :
    Triple deliveryContract (Books (.woken wake)) (onWake wake) fun _ => Books .settled := by
  cases wake with
  | message m =>
    have hsending : deliveryContract.Holds false (Books (.sending m)) := LedgerPred.stable_sending.holds
    have hderef : Triple deliveryContract (Books (.sending m)) derefSocket fun _ => Books (.sending m) :=
      derefSocket_triple hsending (fun _ _ hc _ => hc) (Or.inr fun _ _ => trivial)
    have hhand : Triple deliveryContract (Books (.sending m)) (note (.handed m)) fun _ => Books .settled :=
      note_triple hsending fun c hc => ⟨⟨hc.1.connected, hc.1.queue⟩, hc.2⟩
    exact hderef.bind fun _ => hhand.bind fun _ => wakeRule_books.result
  | _ => exact wakeRule_books.onWake fun _ h => by cases h

theorem connectedPass_books : Triple deliveryContract (Books .settled) connectedPass fun _ => Books .settled := by
  have hsilent : ∀ b, (Event.loaded b).Silent := fun _ => ⟨fun _ => rfl, fun _ => rfl⟩
  have hload : Triple deliveryContract (Books .settled) loadDisconnectReq fun requested c =>
      if requested then Books .settled c else Books .settled c :=
    loadDisconnectReq_triple (settled_holds false) (fun _ hc _ => hc.log (hsilent _)) fun _ hc _ => hc.log (hsilent _)
  have hready : ∀ r c wake c', Books .settled c → wakeReady r c = some (wake, c') →
      Books (.woken wake) (c'.log .selected) :=
    fun r c wake c' hc hready => (wakeReady_books hc hready).log ⟨fun _ => rfl, fun _ => rfl⟩
  exact connectedPass_triple hload wakeRule_books.closing wakeRule_books.runs wakeRule_books.empty wakeRule_books.waits
    (fun _ hc => hc) hready (fun r c wake c' hc _ => hready r c wake c' hc) onWake_books

/-! ## Reconnecting -/

theorem idle_waits : deliveryContract.Holds true (Books .idle) :=
  LedgerPred.stable_idle.waits fun _ _ => LedgerPred.settled_of_idle

theorem attemptRule_books : AttemptRule deliveryContract (Books .idle) (fun _ => Books .idle) (fun _ => Books .idle)
    (Books .idle) where
  runs := LedgerPred.stable_idle.holds
  waits := idle_waits
  moved _ _ := trivial
  empty := Or.inr fun _ _ => trivial
  stored := Or.inr fun _ _ => trivial
  options _ _ hc := hc.log ⟨fun _ => rfl, fun _ => rfl⟩
  start _ _ hc := hc.log ⟨fun _ => rfl, fun _ => rfl⟩
  holds_read _ := LedgerPred.stable_idle.holds
  read _ _ hc _ := hc
  present _ _ hc := hc.log ⟨fun _ => rfl, fun _ => rfl⟩
  holds_takeOver _ := LedgerPred.stable_idle.holds
  takeOver _ _ _ hc _ := hc
  install _ _ hc := hc
  fresh _ _ hc := hc
  holds_installed := LedgerPred.stable_idle.holds
  stateReset _ hc := hc.log ⟨fun _ => rfl, fun _ => rfl⟩

theorem reconnectingPass_books :
    Triple deliveryContract (Books .idle) reconnectingPass fun _ => Books .settled := by
  have hsilent : ∀ b, (Event.loaded b).Silent := fun _ => ⟨fun _ => rfl, fun _ => rfl⟩
  have hload : Triple deliveryContract (Books .idle) loadDisconnectReq fun requested c =>
      if requested then Books .settled c else Books .idle c :=
    loadDisconnectReq_triple LedgerPred.stable_idle.holds (fun _ hc _ => hc.of_idle.log (hsilent _))
      fun _ hc _ => hc.log (hsilent _)
  have hdebounce : Triple deliveryContract (Books .idle) debounce fun _ => Books .idle :=
    debounce_triple deliveryContract_tolerates (fun suspends => by
      cases suspends with
      | true => exact idle_waits
      | false => exact LedgerPred.stable_idle.holds) fun _ hc => hc.log ⟨fun _ => rfl, fun _ => rfl⟩
  have hattempt : ∀ stateless,
      Triple deliveryContract (Books .idle) (reconnectFut stateless) fun _ => Books .settled := by
    intro stateless
    refine attemptRule_books.reconnectFut (E := fun _ => Books .idle) LedgerPred.stable_idle.holds
      (fun _ hc => hc.log ⟨fun _ => rfl, fun _ => rfl⟩) ?_ (fun _ _ hc => hc.log ⟨fun _ => rfl, fun _ => rfl⟩)
      (fun _ => LedgerPred.stable_idle.holds) (fun _ _ hc _ _ => hc.of_idle) fun _ _ =>
        .await idle_waits fun _ _ _ hc _ => hc.of_idle
    exact setState_begin LedgerPred.stable_idle LedgerPred.stable_settled (fun _ _ h => h)
      fun l b _ => LedgerPred.settled_begin l b
  exact reconnectingPass_triple (N := fun _ _ => Books .idle) hload
    ((threadCancelConnection_books LedgerPred.stable_settled).post fun _ _ hc => hc.of_idle)
    (.update LedgerPred.stable_idle.holds fun _ hc => hc) (fun _ _ _ hc => hc.of_idle) (fun _ => hdebounce)
    (fun _ _ => LedgerPred.stable_idle.holds) (fun _ _ _ hc => hc)
    (fun _ stateless _ => race_books LedgerPred.stable_settled (hattempt stateless))
    (fun _ hc => hc) (note_books LedgerPred.stable_settled ⟨fun _ => rfl, fun _ => rfl⟩)

theorem workerThreadLoop_books [Host] :
    Triple deliveryContract (Books .settled) workerThreadLoop fun _ => Books .settled := by
  have hread : Triple deliveryContract (Books .settled) (.read (·.connState))
      fun state c => Books .settled c ∧ c.connState = state :=
    .read (settled_holds false) fun _ hc => ⟨hc, rfl⟩
  have hidle : ∀ c state, Books .settled c ∧ c.connState = state → state ≠ .connected → Books .idle c := by
    rintro c state ⟨hc, rfl⟩ hne
    exact ⟨hc.1, hc.1.connected.trans (by simp [hne])⟩
  refine hread.bind fun state => ?_
  split
  · exact disconnectedPass_books.pre fun c hc => hidle c _ hc (by simp)
  iterate 3
    exact (setState_idle LedgerPred.stable_settled (by simp)).mono (fun c hc => hc.1) fun _ _ hc => hc.of_idle
  · exact connectedPass_books.pre fun c hc => hc.1
  · exact reconnectingPass_books.pre fun c hc => hidle c _ hc (by simp)
  · exact (closingPass_triple (settled_holds false) (settled_holds true) (Or.inr fun _ _ => trivial) (fun _ hc => hc)
      wakeRule_books.fatal ((threadCancelConnection_books LedgerPred.stable_settled).post fun _ _ hc => hc.of_idle)).pre
        fun c hc => hc.1

/-! ## Runs -/

/-- A pass of a connected worker that takes a message from the channel. -/
def deliverEvents : List ConnectionEvent := List.replicate 5 (.own .ready) ++ [.own .message, .own .ready, .own .ready]

/-- The message at the front of the channel is handed to the socket next, if the `select` finds it. -/
theorem deliver_front [Host] {c : Connection} {m : OutgoingMessage} {rest : List OutgoingMessage}
    (hstate : c.connState = .connected) (hrequest : c.disconnectReq = false) (hsocket : c.socket.isSome)
    (hqueue : c.msgChan.items = m :: rest) :
    ∃ c', Config.run workerThreadLoop userStep deliverEvents ⟨c, .ret ()⟩ = some c' ∧
      c'.shared.connState = .connected ∧ c'.shared.msgChan.items = rest ∧
      (ledger c'.shared.history).handed = (ledger c.history).handed ++ [m] := by
  obtain ⟨state, connectChan, ⟨items, hbounded⟩, hostname, path, settings, data, lastError, socket⟩ := c
  obtain ⟨socket, rfl⟩ := Option.isSome_iff_exists.mp hsocket
  cases hstate
  cases hrequest
  cases hqueue
  exact ⟨_, rfl, rfl, rfl, rfl⟩

/-- The run accepts no message early. -/
def Timely (c : ConnectionConfig) (e : ConnectionEvent) : Prop := ∀ user, e = .other user → ¬ acceptsEarly c.shared user

/-- Whenever a connected worker waits or begins a pass, the messages that were accepted since it became connected have
all been handed to the socket or are in the channel, each once and in this order, behind what was in the channel before;
and the front of the channel is what the worker hands over next. -/
theorem accepted_delivered [Host] {c : ConnectionConfig} (h : Running Timely c)
    (hpause : c.task.suspends = true ∨ c.task = .ret ()) (hstate : c.shared.connState = .connected) :
    (ledger c.shared.history).handed ++ c.shared.msgChan.items =
        (ledger c.shared.history).stale ++ (ledger c.shared.history).accepted ∧
      (c.task = .ret () → c.shared.disconnectReq = false → c.shared.socket.isSome → ∀ m rest,
        c.shared.msgChan.items = m :: rest → ∃ c', Config.run workerThreadLoop userStep deliverEvents c = some c' ∧
          c'.shared.connState = .connected ∧ c'.shared.msgChan.items = rest ∧
          (ledger c'.shared.history).handed = (ledger c.shared.history).handed ++ [m]) := by
  have hsafe : Safe deliveryContract (fun _ => Books .settled) c.task c.shared := by
    refine Triple.invariant workerThreadLoop_books (settled_holds false).stable (fun _ _ _ => trivial)
      (fun c e c' htimely hstep => Or.inl ⟨e, htimely e rfl, hstep⟩) ?_ h
    exact ⟨⟨rfl, rfl⟩, fun hconn => by cases hconn⟩
  have hbooks : Books .settled c.shared := by
    rcases hpause with hsuspends | hret
    · exact hsafe.of_suspends hsuspends rfl
    · rw [hret] at hsafe
      exact hsafe
  obtain ⟨htracks, hsettled⟩ := hbooks
  obtain ⟨hbalanced, hhanded⟩ := hsettled (by rw [htracks.connected, hstate]; rfl)
  refine ⟨?_, fun hret hrequest hsocket m rest hqueue => ?_⟩
  · rw [hhanded, ← htracks.queue]
    exact hbalanced
  · obtain ⟨s, t⟩ := c
    cases hret
    exact deliver_front hstate hrequest hsocket hqueue

/-- Whether a message could be accepted early by this event. -/
def timely (c : ConnectionConfig) : ConnectionEvent → Bool
  | .other (.finish _) => !(c.shared.connState = .connected && finishing c.shared.history)
  | _ => true

theorem Timely.of_timely {c : ConnectionConfig} {e : ConnectionEvent} (h : timely c e = true) : Timely c e := by
  rintro (call | i | settings | b) rfl
  · exact id
  · rintro ⟨m, -, -, hconn, hfinishing⟩
    simp [timely, hconn, hfinishing] at h
  · exact id
  · exact id

def keepalive : OutgoingMessage := { message := .keepalive ⟨0⟩, reliable := true }

theorem accepted_delivered_keepalive : ∃ c, @runConnection plainHost (callEvents (.connect tcpUrl) ++ attemptEvents ++
    acceptEvents ++ connectedEvents ++ callEvents sendKeepalive ++ deliverEvents) = some c ∧
    (ledger c.shared.history).accepted = [keepalive] ∧
    (ledger c.shared.history).handed ++ c.shared.msgChan.items =
      (ledger c.shared.history).stale ++ (ledger c.shared.history).accepted := by
  obtain ⟨c, hrun, hend⟩ := Option.map_eq_some_iff.mp (show (@runConnectionIf plainHost timely
    (callEvents (.connect tcpUrl) ++ attemptEvents ++ acceptEvents ++ connectedEvents ++ callEvents sendKeepalive ++
      deliverEvents)).map (fun c => (c.task.suspends, c.shared.connState, (ledger c.shared.history).accepted)) =
      some (true, .connected, [keepalive]) by decide +kernel)
  simp only [Prod.mk.injEq] at hend
  refine ⟨c, @runConnection_of_runIf plainHost _ _ _ hrun, hend.2.2, ?_⟩
  exact (@accepted_delivered plainHost c (@Running.of_runIf plainHost _ _ _ _ (fun _ _ => .of_timely) hrun)
    (Or.inl hend.1) hend.2.1).1

/-- A message that is sent as soon as the state is `Connected` is accepted and then drained. -/
theorem accepted_lost : ∃ c, @runConnection plainHost (callEvents (.connect tcpUrl) ++ attemptEvents ++ acceptEvents ++
    [.own .ready] ++ callEvents sendKeepalive ++ List.replicate 5 (.own .ready)) = some c ∧ c.task.returned = true ∧
    c.shared.connState = .connected ∧ (ledger c.shared.history).accepted = [keepalive] ∧
    (ledger c.shared.history).handed = [] ∧ c.shared.msgChan.items = [] := by
  obtain ⟨c, hrun, hend⟩ := Option.map_eq_some_iff.mp (show (@runConnection plainHost (callEvents (.connect tcpUrl) ++
    attemptEvents ++ acceptEvents ++ [.own .ready] ++ callEvents sendKeepalive ++
    List.replicate 5 (.own .ready))).map (fun c => (c.task.returned, c.shared.connState,
      (ledger c.shared.history).accepted, (ledger c.shared.history).handed, c.shared.msgChan.items)) =
      some (true, .connected, [keepalive], [], []) by decide +kernel)
  simp only [Prod.mk.injEq] at hend
  exact ⟨c, hrun, hend⟩

end Qunet
