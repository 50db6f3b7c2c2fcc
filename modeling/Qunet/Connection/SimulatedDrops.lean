import Qunet.Connection.Reconnecting

/-!
# Simulated drops (`Connection::simulateConnectionDrop`)

A drop runs the worker's own error handler while the worker is suspended. Outside of `Connected` the handler resets the
socket and the stored data whether the worker still uses them or not.

* `asleep`, `Connection.InUse` : what the worker is suspended in;
* `Situation`, `Situation.MayDrop` : where a drop leaves alone what is used;
* `Situation.Suspended` : what holds wherever the worker is suspended, `Situation.Between` when a pass begins;
* `dropContract` : what the worker relies on; `dropConnect`, `dropAttempt`, … : one rule for each function;
* **`simulateConnectionDrop_safe`** : every run in which drops are simulated only there;
* `simulateConnectionDrop_attempt` : a drop during an attempt to connect, which goes on;
* `simulateConnectionDrop_unsafe` : what else may happen.
-/

namespace Qunet
open Lib

/-- Whether the last attempt to reconnect has failed and its `select` has not ended yet. -/
def asleep : List Event → Bool
  | [] => false
  | .reconnectFailed .. :: _ => true
  | .selected :: _ => false
  | .dequeued _ :: _ => false
  | _ :: history => asleep history

/-- The worker is suspended in something that may use the socket or the stored data: in anything but the sleep after an
attempt that has failed. -/
def Connection.InUse (c : Connection) : Prop := asleep c.history = false

/-! ## Situations -/

structure Situation extends View where
  asleep : Bool

def Connection.situation (c : Connection) : Situation := ⟨c.view, asleep c.history⟩

namespace Situation

def reset (s : Situation) : Situation := { s with connState := .disconnected, socket := none, data := {} }

/-- After a drop with this answer of the should-reconnect callback. -/
def dropped (b : Bool) (s : Situation) : Situation :=
  if s.connState = .connected ∧ b = true then { s with connState := .reconnecting } else s.reset

/-- A drop does no harm: the connection is connected and shall reconnect, or the worker does not use the socket. -/
def MayDrop (b : Bool) (s : Situation) : Prop :=
  match s.connState with
  | .connected => b = true
  | .reconnecting => s.asleep = true
  | .closing => False
  | .disconnected | .dnsResolving | .pinging | .connecting => True

instance (b : Bool) (s : Situation) : Decidable (s.MayDrop b) :=
  match h : s.connState with
  | .connected => decidable_of_iff (b = true) (by simp [MayDrop, h])
  | .reconnecting => decidable_of_iff (s.asleep = true) (by simp [MayDrop, h])
  | .closing => .isFalse (by simp [MayDrop, h])
  | .disconnected | .dnsResolving | .pinging | .connecting => .isTrue (by simp [MayDrop, h])

/-- There is nothing to use. -/
structure Unused (s : Situation) : Prop where
  state : s.connState = .disconnected ∨ s.connState.intermediate
  socket : s.socket = none
  data : s.data = {}

/-- As after a reset. -/
def Disconnected (s : Situation) : Prop := s.Unused ∧ s.connState = .disconnected

/-- Connected, or in an attempt to reconnect. -/
structure Serves (s : Situation) : Prop where
  state : s.connState = .connected ∨ s.connState = .reconnecting
  engaged : s.toView.Engaged
  awake : s.asleep = false

structure Sleeps (s : Situation) : Prop where
  state : s.connState = .reconnecting
  engaged : s.toView.Engaged
  asleep : s.asleep = true

structure Closes (s : Situation) : Prop where
  state : s.connState = .closing
  socket : s.socket.isSome
  awake : s.asleep = false

/-- What the worker may be suspended in. -/
inductive Suspended (s : Situation) : Prop where
  | unused (h : s.Unused)
  | serves (h : s.Serves)
  | sleeps (h : s.Sleeps)
  | closes (h : s.Closes)

/-- What holds when a pass begins. -/
inductive Between (s : Situation) : Prop where
  | disconnected (h : s.Disconnected)
  | serves (h : s.Serves)
  | closes (h : s.Closes)

/-- What holds before a `select` ends. -/
def Ends (s : Situation) : Prop := ({ s with asleep := false } : Situation).Between

section
variable {s : Situation} {b : Bool}

theorem dropped_of_ne (h : s.connState ≠ .connected) : s.dropped b = s.reset := if_neg fun hs => h hs.1

theorem dropped_of_connected (h : s.connState = .connected) : s.dropped true = { s with connState := .reconnecting } :=
  if_pos ⟨h, rfl⟩

theorem reset_disconnected (s : Situation) : s.reset.Disconnected := ⟨⟨Or.inl rfl, rfl, rfl⟩, rfl⟩

theorem reset_between (s : Situation) : s.reset.Between := .disconnected s.reset_disconnected

theorem dropped_state (b : Bool) (s : Situation) :
    (s.dropped b).connState = .reconnecting ∨ (s.dropped b).Disconnected := by
  unfold dropped
  split
  · exact Or.inl rfl
  · exact Or.inr s.reset_disconnected

theorem Unused.ne_connected (h : s.Unused) : s.connState ≠ .connected := by
  intro hstate
  rcases h.state with hd | hi
  · simp [hstate] at hd
  · simp [hstate, ConnectionState.intermediate] at hi

theorem Unused.mayDrop (h : s.Unused) : s.MayDrop b := by
  unfold MayDrop
  rcases h.state with hd | hi
  · simp [hd]
  · revert hi
    cases s.connState <;> simp [ConnectionState.intermediate]

theorem Unused.dropped (h : s.Unused) : (s.dropped b).Disconnected := by
  rw [dropped_of_ne h.ne_connected]
  exact s.reset_disconnected

/-- A worker that is served stays so: it reconnects later. -/
theorem Serves.dropped (h : s.Serves) (hb : s.MayDrop b) : (s.dropped b).Serves := by
  unfold MayDrop at hb
  rcases h.state with hstate | hstate
  · simp only [hstate] at hb
    subst hb
    rw [dropped_of_connected hstate]
    exact ⟨Or.inr rfl, ⟨h.engaged.socket, h.engaged.address, h.engaged.connType⟩, h.awake⟩
  · simp [hstate, h.awake] at hb

theorem Sleeps.dropped (h : s.Sleeps) : (s.dropped b).Disconnected := by
  rw [dropped_of_ne (by simp [h.state])]
  exact s.reset_disconnected

theorem Closes.not_mayDrop (h : s.Closes) : ¬ s.MayDrop b := by simp [MayDrop, h.state]

theorem Serves.not_mayDrop (h : s.Serves) (hstate : s.connState = .reconnecting) : ¬ s.MayDrop b := by
  simp [MayDrop, hstate, h.awake]

theorem Between.suspended (h : s.Between) : s.Suspended := by
  cases h with
  | disconnected h => exact .unused h.1
  | serves h => exact .serves h
  | closes h => exact .closes h

/-- The state tells the situations between two passes apart. -/
theorem Between.of_state (h : s.Between) :
    (s.connState = .disconnected → s.Disconnected) ∧ (s.connState = .connected ∨ s.connState = .reconnecting → s.Serves) ∧
      (s.connState = .closing → s.Closes) ∧ ¬ s.connState.intermediate := by
  cases h with
  | disconnected h => simp [h, h.2, ConnectionState.intermediate]
  | serves h => rcases h.state with hstate | hstate <;> simp [h, hstate, ConnectionState.intermediate]
  | closes h => simp [h, h.state, ConnectionState.intermediate]

theorem Between.ends (h : s.Between) : s.Ends := by
  cases h with
  | disconnected h => exact .disconnected ⟨⟨h.1.state, h.1.socket, h.1.data⟩, h.2⟩
  | serves h => exact .serves ⟨h.state, h.engaged, rfl⟩
  | closes h => exact .closes ⟨h.state, h.socket, rfl⟩

theorem Suspended.engaged (h : s.Suspended) (hstate : s.connState = .connected) : s.toView.Engaged := by
  cases h with
  | unused h => exact absurd hstate h.ne_connected
  | serves h => exact h.engaged
  | sleeps h => exact h.engaged
  | closes h => simp [h.state] at hstate

/-- What a drop resets is used exactly where a drop may do harm. -/
theorem Suspended.mayDrop_iff (h : s.Suspended) (b : Bool) :
    (s.asleep = false → (s.dropped b).socket = s.socket ∧ (s.dropped b).data = s.data) ↔ s.MayDrop b := by
  have hlost : ∀ {s : Situation}, s.socket.isSome → s.asleep = false →
      ¬ (s.asleep = false → s.reset.socket = s.socket ∧ s.reset.data = s.data) := by
    intro s hsocket hawake hkept
    rw [← (hkept hawake).1] at hsocket
    cases hsocket
  cases h with
  | unused h =>
    refine iff_of_true (fun _ => ?_) h.mayDrop
    rw [dropped_of_ne h.ne_connected]
    exact ⟨h.socket.symm, h.data.symm⟩
  | serves h =>
    rcases h.state with hstate | hstate
    · cases b with
      | true =>
        refine iff_of_true (fun _ => ?_) (by simp [MayDrop, hstate])
        rw [dropped_of_connected hstate]
        exact ⟨rfl, rfl⟩
      | false =>
        have hreset : s.dropped false = s.reset := if_neg (by simp)
        rw [hreset]
        exact iff_of_false (hlost h.engaged.socket h.awake) (by simp [MayDrop, hstate])
    · rw [dropped_of_ne (by simp [hstate])]
      exact iff_of_false (hlost h.engaged.socket h.awake) (h.not_mayDrop hstate)
  | sleeps h => exact iff_of_true (fun hawake => by simp [h.asleep] at hawake) (by simp [MayDrop, h.state, h.asleep])
  | closes h =>
    rw [dropped_of_ne (by simp [h.state])]
    exact iff_of_false (hlost h.socket h.awake) h.not_mayDrop

end

end Situation

theorem dropped_situation (b : Bool) (c : Connection) : (c.dropped b).situation = c.situation.dropped b := by
  unfold Situation.dropped
  split
  · next h =>
    obtain ⟨hstate, rfl⟩ := h
    rw [dropped_connected hstate]
    rfl
  · next h =>
    rw [dropped_disconnected h]
    by_cases hstate : c.connState = .disconnected
    · simp only [hstate, if_pos]
      rfl
    · simp only [if_neg hstate]
      rfl

theorem userStep_situation {e : UserEvent} {c c' : Connection} (he : e.NoDrop) (h : userStep e c = some c') :
    c'.situation = c.situation := by
  cases userStep_change h with
  | drop b => cases he
  | _ => rfl

/-! ## The contract -/

/-- While the worker is suspended, the others may also simulate a drop where that does no harm. -/
def dropContract : Contract Connection Answer Abort where
  rely suspends c c' := c'.situation = c.situation ∨
    suspends = true ∧ ∃ b, c.situation.MayDrop b ∧ c'.situation = c.situation.dropped b
  admits _ _ _ := True
  inv suspends c := suspends = true → c.situation.Suspended
  aborts why _ := why.connecting

abbrev DropTriple {α : Type} (p : Situation → Prop) (t : Worker α) (q : α → Situation → Prop) : Prop :=
  Triple dropContract (fun c => p c.situation) t fun a c => q a c.situation

theorem dropContract_runs (p : Situation → Prop) : dropContract.Holds false fun c => p c.situation := by
  refine ⟨fun _ _ hsuspends => (by cases hsuspends), fun c c' hc hrely => ?_⟩
  rcases hrely with hsame | ⟨hsuspends, -⟩
  · exact hsame ▸ hc
  · cases hsuspends

theorem dropContract_waits {p : Situation → Prop} (hp : ∀ s, p s → s.Suspended)
    (hdrop : ∀ s b, p s → s.MayDrop b → p (s.dropped b)) : dropContract.Holds true fun c => p c.situation := by
  refine ⟨fun _ hc _ => hp _ hc, fun c c' hc hrely => ?_⟩
  rcases hrely with hsame | ⟨-, b, hb, hdropped⟩
  · exact hsame ▸ hc
  · exact hdropped ▸ hdrop _ b hc hb

/-- In an attempt to connect. -/
def Situation.Connects (s : Situation) : Prop := s.Unused ∧ s.asleep = false

/-- After an attempt that has succeeded. -/
def Situation.Arrives (s : Situation) : Prop := s.toView.Engaged ∧ s.asleep = false

/-- In an attempt to reconnect, or just before it. -/
def Situation.Reconnects (s : Situation) : Prop := s.Serves ∧ s.connState = .reconnecting

theorem disconnected_waits : dropContract.Holds true fun c => c.situation.Disconnected :=
  dropContract_waits (p := Situation.Disconnected) (fun _ h => .unused h.1) fun _ _ h _ => h.1.dropped

theorem connects_waits : dropContract.Holds true fun c => c.situation.Connects := by
  refine dropContract_waits (p := Situation.Connects) (fun _ h => .unused h.1) fun s b h _ => ⟨h.1.dropped.1, ?_⟩
  rw [Situation.dropped_of_ne h.1.ne_connected]
  exact h.2

theorem serves_waits : dropContract.Holds true fun c => c.situation.Serves :=
  dropContract_waits (fun _ h => .serves h) fun _ _ h hb => h.dropped hb

theorem reconnects_waits : dropContract.Holds true fun c => c.situation.Reconnects :=
  dropContract_waits (p := Situation.Reconnects) (fun _ h => .serves h.1) fun _ _ h hb =>
    absurd hb (h.1.not_mayDrop h.2)

theorem sleeps_waits : dropContract.Holds true fun c => c.situation.Sleeps ∨ c.situation.Disconnected := by
  refine dropContract_waits (p := fun s => s.Sleeps ∨ s.Disconnected) (fun s h => ?_) fun s b h _ => ?_
  · rcases h with h | h
    · exact .sleeps h
    · exact .unused h.1
  · rcases h with h | h
    · exact Or.inr h.dropped
    · exact Or.inr h.1.dropped

theorem closes_waits : dropContract.Holds true fun c => c.situation.Closes :=
  dropContract_waits (fun _ h => .closes h) fun _ _ h hb => absurd hb h.not_mayDrop

section
variable {p q : Situation → Prop}

theorem act_situation {f : Connection → Connection} (h : ∀ c, p c.situation → q (f c).situation) :
    DropTriple p (.act f) fun _ => q :=
  .act (dropContract_runs p) h

theorem ask_situation {α : Type} {f : Answer → Option α} : DropTriple p (.ask f) fun _ => p :=
  .ask (dropContract_runs p) fun _ _ _ hc _ => hc

/-! ## The state -/

theorem setState_situation {state : ConnectionState} (hne : state ≠ .connected)
    (h : ∀ s, p s → q { s with connState := state }) : DropTriple p (setState state) fun _ => q :=
  setState_triple_of_ne hne (dropContract_runs p) (dropContract_runs q) (fun _ hc => h _ hc) fun _ hc => hc

/-- `setState` also resets the attempts. -/
theorem setState_connected_situation :
    DropTriple Situation.Arrives (setState .connected) fun _ => Situation.Serves := by
  have hserves : ∀ s : Situation, s.Arrives → ({ s with connState := .connected } : Situation).Serves := fun s hs =>
    ⟨Or.inl rfl, ⟨hs.1.socket, hs.1.address, hs.1.connType⟩, hs.2⟩
  exact setState_triple (dropContract_runs Situation.Arrives) (dropContract_runs Situation.Serves)
    (dropContract_runs Situation.Serves) (fun c hc _ => hserves _ hc) (fun c hc _ => hserves _ hc) (fun _ hc _ => hc)
    (fun _ hc _ => hc) fun _ hc _ => ⟨hc.state, hc.engaged.resetAttempts, hc.awake⟩

/-- The reset, up to the state. -/
theorem resetConnectionState_situation (h : ∀ s, p s → q { s with socket := none, data := {} }) :
    DropTriple p resetConnectionState fun _ => q := by
  have hdata : DropTriple p (.act fun c => { c with data := {} }) fun _ s => q { s with socket := none } :=
    act_situation fun c hc => h c.situation hc
  refine hdata.bind fun _ => ?_
  have hrequest : DropTriple (fun s => q { s with socket := none }) (.act fun c => { c with disconnectReq := false })
      fun _ s => q { s with socket := none } := act_situation fun _ hc => hc
  refine hrequest.bind fun _ => ?_
  exact act_situation (p := fun s => q { s with socket := none }) fun _ hc => hc

theorem threadCancelConnection_situation (h : ∀ s, p s → q s.reset) :
    DropTriple p threadCancelConnection fun _ => q := by
  have hreset : DropTriple p resetConnectionState fun _ s => q { s with connState := .disconnected } :=
    resetConnectionState_situation fun s hs => h s hs
  refine hreset.bind fun _ => ?_
  exact setState_situation (p := fun s => q { s with connState := .disconnected }) (by simp) fun _ hs => hs

theorem onFatalError_situation (e : ConnectionError)
    (hreconnect : ∀ s, p s → s.connState = .connected → q { s with connState := .reconnecting })
    (hreset : ∀ s, p s → q s.reset) : DropTriple p (onFatalError e) fun _ => q := by
  refine Triple.bind (act_situation (q := p) fun _ hc => hc) fun _ => ?_
  have hread : DropTriple p (.read (·.connState)) fun state s => p s ∧ s.connState = state :=
    .read (dropContract_runs p) fun _ hc => ⟨hc, rfl⟩
  refine hread.bind fun state => ?_
  refine Triple.bind (ask_situation (p := fun s => p s ∧ s.connState = state)) fun shouldReconnect => ?_
  split
  · next hstate =>
    have hdrain : DropTriple (fun s => p s ∧ s.connState = state) drainMessages
        fun _ s => p s ∧ s.connState = state := act_situation fun _ hc => hc
    refine hdrain.bind fun _ => ?_
    exact setState_situation (p := fun s => p s ∧ s.connState = state) (by simp) fun s hs =>
      hreconnect s hs.1 (hs.2.trans hstate.1)
  · exact threadCancelConnection_situation (p := fun s => p s ∧ s.connState = state) fun s hs => hreset s hs.1

end

/-! ## Connecting -/

theorem PrepareStep.situation {c c' : Connection} (hc : c.situation.Connects) (h : PrepareStep c c') :
    c'.situation.Connects := by
  cases h with
  | refl => exact hc
  | log e h =>
    cases e with
    | reconnectFailed => cases h
    | selected => cases h
    | dequeued => cases h
    | _ => exact hc
  | exchange state h => exact ⟨⟨Or.inr h, hc.1.socket, hc.1.data⟩, hc.2⟩
  | target => exact hc

theorem dropConnect : ConnectRule dropContract (fun c => c.situation.Connects)
    (fun c => c.situation.socket.isSome ∧ c.situation.asleep = false) fun c => c.situation.Arrives where
  runs := dropContract_runs Situation.Connects
  waits := connects_waits
  aborts _ _ _ hwhy := hwhy
  prepare _ _ hc hstep := hstep.situation hc
  resetData _ hc := ⟨⟨hc.1.state, hc.1.socket, rfl⟩, hc.2⟩
  resetRequest _ hc := hc
  resetSocket _ hc := ⟨⟨hc.1.state, rfl, hc.1.data⟩, hc.2⟩
  install _ _ hc := ⟨rfl, hc.2⟩
  installed := dropContract_runs fun s => s.socket.isSome ∧ s.asleep = false
  store _ _ _ hc htype := ⟨⟨hc.1, rfl, htype⟩, hc.2⟩

theorem dropContract_tolerates : dropContract.Tolerates disconnectWaiter where
  rely _ _ hrely := hrely.imp_right fun hdrop => (by cases hdrop.1)
  inv _ _ hsuspends := by cases hsuspends
  admits _ _ _ := trivial
  register _ := Or.inl rfl
  drop _ := Or.inl rfl

/-- A raced task may be dropped wherever it is suspended. -/
theorem race_situation {α : Type} {p : Situation → Prop} {q : α → Situation → Prop} {t : Worker α} {first : Bool}
    (h : DropTriple p t q) : DropTriple p (t.race disconnectWaiter first) fun r s => ∀ a, r = some a → q a s :=
  .race_some dropContract_tolerates (fun a => dropContract_runs (q a)) h

theorem drainMessages_situation {p : Situation → Prop} : DropTriple p drainMessages fun _ => p :=
  act_situation fun _ hc => hc

theorem finishConnect_situation (r : Option (ConnectionResult Unit)) :
    DropTriple (fun s => ∀ a, r = some a → (a = .ok () → s.Arrives) ∧ ∀ e, a = .error e → s.Connects)
      (finishConnect r) fun _ => Situation.Between := by
  rcases r with _ | e | ⟨⟩
  · exact threadCancelConnection_situation fun s _ => s.reset_between
  · have hfatal : DropTriple Situation.Connects (onFatalError e) fun _ => Situation.Between :=
      onFatalError_situation e (fun _ hs hstate => absurd hstate hs.1.ne_connected) fun s _ => s.reset_between
    exact (hfatal.bind fun _ => drainMessages_situation).pre fun c hc => (hc _ rfl).2 e rfl
  · have hset : DropTriple Situation.Arrives (setState .connected) fun _ => Situation.Between :=
      setState_connected_situation.post fun _ _ hc => .serves hc
    have herror : DropTriple Situation.Between (setLastError (.other .success)) fun _ => Situation.Between :=
      act_situation fun _ hc => hc
    exact (hset.bind fun _ => herror.bind fun _ => drainMessages_situation).pre fun c hc => (hc _ rfl).1 rfl

theorem disconnectedPass_situation [Host] :
    DropTriple Situation.Disconnected disconnectedPass fun _ => Situation.Between := by
  have hrecv : DropTriple Situation.Disconnected recvRequest fun _ => Situation.Connects :=
    recvRequest_triple disconnected_waits fun _ _ _ hc _ => ⟨⟨hc.1.state, hc.1.socket, hc.1.data⟩, rfl⟩
  refine hrecv.bind fun url => ?_
  have hconnect : DropTriple Situation.Connects (threadConnect url)
      fun r s => (r = .ok () → s.Arrives) ∧ ∀ e, r = .error e → s.Connects :=
    (dropConnect.threadConnect url).post fun r c hc => ⟨hc.1 (), hc.2⟩
  refine (race_situation hconnect).bind fun r => ?_
  refine (finishConnect_situation r).bind fun _ => ?_
  exact act_situation (p := Situation.Between) fun _ hc => hc

/-! ## Serving -/

theorem wakeReady_situation {r : Answer} {c c' : Connection} {wake : Wake} (h : wakeReady r c = some (wake, c')) :
    c'.situation = c.situation := by
  obtain ⟨m, chan, -, -, rfl⟩ | ⟨-, rfl | rfl⟩ := wakeReady_cases h <;> rfl

theorem Situation.Serves.ne_empty {c : Connection} (h : c.situation.Serves) : c.socket ≠ none :=
  Option.isSome_iff_ne_none.mp h.engaged.socket

theorem wakeRule_situation : WakeRule dropContract (fun c => c.situation.Serves) fun c => c.situation.Between where
  runs := dropContract_runs Situation.Serves
  waits := serves_waits
  empty := Or.inl fun _ hc => hc.ne_empty
  closing := setState_situation (by simp) fun _ hs => .closes ⟨rfl, hs.engaged.socket, hs.awake⟩
  fatal e := onFatalError_situation e
    (fun _ hs _ => .serves ⟨Or.inr rfl, ⟨hs.engaged.socket, hs.engaged.address, hs.engaged.connType⟩, hs.awake⟩)
    fun s _ => s.reset_between
  lastError _ _ hc := .serves hc
  dataCallback _ _ hc := .serves hc
  weaken _ hc := .serves hc

theorem connectedPass_situation : DropTriple Situation.Serves connectedPass fun _ => Situation.Between := by
  refine connectedPass_triple
    (loadDisconnectReq_triple (dropContract_runs Situation.Serves) (fun _ hc _ => hc) fun _ hc _ => hc)
    wakeRule_situation.closing wakeRule_situation.runs wakeRule_situation.empty
    (R := fun c => c.situation.Serves) (W := fun _ c => c.situation.Serves) wakeRule_situation.waits (fun _ hc => hc)
    ?_ ?_ fun wake => wakeRule_situation.onWake fun _ _ => act_situation (p := Situation.Serves) fun _ hc => hc
  · intro r c wake c' hc hready
    have hc' : c'.situation.Serves := wakeReady_situation hready ▸ hc
    exact ⟨hc'.state, hc'.engaged, rfl⟩
  · intro r c wake c' hc _ hready
    have hc' : c'.situation.Serves := wakeReady_situation hready ▸ hc
    exact ⟨hc'.state, hc'.engaged, rfl⟩

/-! ## Reconnecting -/

theorem Situation.Reconnects.install {c : Connection} (h : c.situation.Reconnects) (s : Socket) :
    ({ c with socket := some s } : Connection).situation.Reconnects :=
  ⟨⟨h.1.state, ⟨rfl, h.1.engaged.address, h.1.engaged.connType⟩, h.1.awake⟩, h.2⟩

theorem dropAttempt : AttemptRule dropContract (fun c => c.situation.Reconnects) (fun _ c => c.situation.Reconnects)
    (fun _ c => c.situation.Reconnects) fun c => c.situation.Reconnects where
  runs := dropContract_runs Situation.Reconnects
  waits := reconnects_waits
  moved _ _ := Or.inr (Or.inr rfl)
  empty := Or.inl fun _ hc => hc.1.ne_empty
  stored := Or.inl fun _ hc => ⟨Option.isSome_iff_ne_none.mp hc.1.engaged.address, hc.1.engaged.connType⟩
  options _ _ hc := hc
  start _ _ hc := hc
  holds_read _ := dropContract_runs Situation.Reconnects
  read _ _ hc _ := hc
  present _ _ hc := hc
  holds_takeOver _ := dropContract_runs Situation.Reconnects
  takeOver _ _ _ hc _ := hc.install _
  install _ _ hc := hc.install _
  fresh _ _ hc := hc.install _
  holds_installed := dropContract_runs Situation.Reconnects
  stateReset _ hc := hc

theorem reconnectFut_situation (stateless : Bool) :
    DropTriple Situation.Reconnects (reconnectFut stateless) fun _ => Situation.Ends := by
  refine dropAttempt.reconnectFut (E := fun _ c => c.situation.Sleeps) (dropContract_runs Situation.Reconnects)
    (fun _ hc => hc) ?_ (fun _ _ hc => ⟨hc.2, hc.1.engaged, rfl⟩) (fun _ => dropContract_runs Situation.Sleeps) ?_ ?_
  · exact setState_connected_situation.mono (fun _ hc => ⟨hc.1.engaged, hc.1.awake⟩)
      fun _ _ hc => .serves ⟨hc.state, hc.engaged, rfl⟩
  · intro c e hc _ _
    exact .serves ⟨Or.inr hc.state, ⟨hc.engaged.socket, hc.engaged.address, hc.engaged.connType⟩, rfl⟩
  · intro e _
    have hsleep : Triple dropContract (fun c => c.situation.Sleeps ∨ c.situation.Disconnected)
        (.await Answer.ready?) fun _ c => c.situation.Ends := by
      refine .await sleeps_waits fun _ _ c hc _ => ?_
      rcases hc with hc | hc
      · exact .serves ⟨Or.inr hc.state, hc.engaged, rfl⟩
      · exact (Situation.Between.disconnected hc).ends
    exact hsleep.pre fun _ => Or.inl

theorem debounce_situation : DropTriple Situation.Reconnects debounce fun _ => Situation.Reconnects := by
  refine debounce_triple dropContract_tolerates (fun suspends => ?_) fun _ hc => hc
  cases suspends with
  | true => exact reconnects_waits
  | false => exact dropContract_runs Situation.Reconnects

theorem reconnectingPass_situation :
    DropTriple Situation.Reconnects reconnectingPass fun _ => Situation.Between := by
  refine reconnectingPass_triple (G := fun _ => True) (N := fun _ _ c => c.situation.Reconnects)
    (R := fun c => c.situation.Ends)
    (loadDisconnectReq_triple (dropContract_runs Situation.Reconnects) (fun _ _ _ => trivial) fun _ hc _ => hc)
    (threadCancelConnection_situation (p := fun _ => True) fun s _ => s.reset_between)
    (.update (dropContract_runs Situation.Reconnects) fun c hc => ?_) (fun _ _ _ _ => trivial)
    (fun _ => debounce_situation) (fun _ _ => dropContract_runs Situation.Reconnects) (fun _ _ _ hc => hc) ?_
    (fun _ hc => hc.ends) (act_situation (p := Situation.Ends) fun _ hc => hc)
  · exact ⟨⟨hc.1.state, ⟨hc.1.engaged.socket, hc.1.engaged.address, hc.1.engaged.connType⟩, hc.1.awake⟩, hc.2⟩
  · intro attempt stateless _
    refine (race_situation (reconnectFut_situation stateless)).post fun r c hc => ?_
    cases r with
    | none => trivial
    | some a => exact hc a rfl

/-! ## Closing, and a whole pass -/

theorem closingPass_situation : DropTriple Situation.Closes closingPass fun _ => Situation.Between :=
  closingPass_triple (dropContract_runs Situation.Closes) closes_waits
    (Or.inl fun _ hc => Option.isSome_iff_ne_none.mp hc.socket) (fun _ hc => .closes hc)
    (fun e => onFatalError_situation e (fun _ hs hstate => by simp [hs.state] at hstate) fun s _ => s.reset_between)
    (threadCancelConnection_situation fun s _ => s.reset_between)

theorem workerThreadLoop_situation [Host] :
    DropTriple Situation.Between workerThreadLoop fun _ => Situation.Between := by
  have hread : DropTriple Situation.Between (.read (·.connState)) fun state s => s.Between ∧ s.connState = state :=
    .read (dropContract_runs Situation.Between) fun _ hc => ⟨hc, rfl⟩
  refine hread.bind fun state => ?_
  split
  · exact disconnectedPass_situation.pre fun c hc => hc.1.of_state.1 hc.2
  iterate 3 exact fun c hc => absurd (by rw [hc.2]; rfl) hc.1.of_state.2.2.2
  · exact connectedPass_situation.pre fun c hc => hc.1.of_state.2.1 (Or.inl hc.2)
  · exact reconnectingPass_situation.pre fun c hc => ⟨hc.1.of_state.2.1 (Or.inr hc.2), hc.2⟩
  · exact closingPass_situation.pre fun c hc => hc.1.of_state.2.2.1 hc.2

/-! ## Runs -/

/-- Drops are simulated only while the worker is suspended. -/
def DropsSuspended : ConnectionConfig → ConnectionEvent → Prop
  | c, .other (.simulateConnectionDrop _) => c.task.suspends = true
  | _, _ => True

instance (c : ConnectionConfig) : (e : ConnectionEvent) → Decidable (DropsSuspended c e)
  | .other (.simulateConnectionDrop _) => inferInstanceAs (Decidable (_ = true))
  | .other (.enter _) | .other (.finish _) | .other (.settings _) | .own _ => .isTrue trivial

/-- And only where they do no harm. -/
def DropsHarmless : ConnectionConfig → ConnectionEvent → Prop
  | c, .other (.simulateConnectionDrop b) => c.task.suspends = true ∧ c.shared.situation.MayDrop b
  | _, _ => True

instance (c : ConnectionConfig) : (e : ConnectionEvent) → Decidable (DropsHarmless c e)
  | .other (.simulateConnectionDrop b) => inferInstanceAs (Decidable (_ = true ∧ c.shared.situation.MayDrop b))
  | .other (.enter _) | .other (.finish _) | .other (.settings _) | .own _ => .isTrue trivial

theorem dropsHarmless_safe [Host] {c : ConnectionConfig} (h : Running DropsHarmless c) :
    Safe dropContract (fun _ c => c.situation.Between) c.task c.shared := by
  refine Triple.invariant workerThreadLoop_situation (fun _ _ hc hrely => ?_) (fun _ _ _ => trivial) ?_ ?_ h
  · exact (dropContract_runs Situation.Between).stable _ _ hc hrely
  · intro c e c' he hstep
    cases e with
    | simulateConnectionDrop b =>
      rw [userStep_drop] at hstep
      cases hstep
      exact Or.inr ⟨he.1, b, he.2, dropped_situation b c.shared⟩
    | _ => exact Or.inl (userStep_situation (by trivial) hstep)
  · exact .disconnected ⟨⟨Or.inl rfl, rfl, rfl⟩, rfl⟩

/-- What a drop does to a connection: a reconnect or the end of the session, and nothing that is in use is reset. -/
structure DropSafe (c c' : Connection) : Prop where
  state : c'.connState = .reconnecting ∨ c'.connState = .disconnected ∧ c'.socket = none ∧ c'.data = {}
  kept : c.InUse → c'.socket = c.socket ∧ c'.data = c.data

/-- A reset of a socket that is in use. -/
theorem not_dropSafe {b : Bool} {c : Connection} (hstate : c.connState ≠ .connected) (hsocket : c.socket.isSome)
    (huse : c.InUse) : ¬ DropSafe c (c.dropped b) := by
  intro hdrop
  have hkept := (hdrop.kept huse).1
  rw [dropped_disconnected fun h => hstate h.1] at hkept
  rw [← hkept] at hsocket
  cases hsocket

/-- Wherever the worker is suspended, a drop is safe exactly where it does no harm; and if all drops of a run are such,
then a connected worker has its socket and the stored address, and the run ends early only because of a destination or
an attempt to connect. -/
theorem simulateConnectionDrop_safe [Host] {c : ConnectionConfig} (h : Running DropsHarmless c) :
    (c.task.suspends = true → ∀ b c', userStep (.simulateConnectionDrop b) c.shared = some c' →
      (DropSafe c.shared c' ↔ c.shared.situation.MayDrop b)) ∧
    (c.task.suspends = true ∨ c.task.returned = true → c.shared.connState = .connected → c.shared.view.Engaged) ∧
    ∀ why, c.task = .abort why → why.connecting := by
  have hsafe := dropsHarmless_safe h
  refine ⟨fun hsuspends b c' hstep => ?_, fun hpoint hconnected => ?_, fun why habort => ?_⟩
  · have hsuspended : c.shared.situation.Suspended := hsafe.of_suspends hsuspends rfl
    rw [userStep_drop] at hstep
    cases hstep
    rw [← hsuspended.mayDrop_iff b, ← dropped_situation]
    refine ⟨fun hdrop => hdrop.kept, fun hkept => ⟨?_, hkept⟩⟩
    have hstate := Situation.dropped_state b c.shared.situation
    rw [← dropped_situation] at hstate
    exact hstate.imp_right fun hdisconnected =>
      ⟨hdisconnected.2, hdisconnected.1.socket, hdisconnected.1.data⟩
  · refine Situation.Suspended.engaged (s := c.shared.situation) ?_ hconnected
    rcases hpoint with hsuspends | hreturned
    · exact hsafe.of_suspends hsuspends rfl
    · rw [Task.eq_ret hreturned] at hsafe
      exact hsafe.of_ret.suspended
  · rw [habort] at hsafe
    exact hsafe.of_abort

/-- A drop during an attempt to connect reports `Disconnected`, and does not end the attempt: the worker goes on where it
is, with a socket and data that were empty before. -/
theorem simulateConnectionDrop_attempt [Host] {c : ConnectionConfig} (h : Running DropsHarmless c)
    (hsuspends : c.task.suspends = true) (hattempt : c.shared.connState.intermediate) (b : Bool) :
    ∃ c', Config.step workerThreadLoop userStep (.other (.simulateConnectionDrop b)) c = some ⟨c', c.task⟩ ∧
      c'.connState = .disconnected ∧ c'.socket = c.shared.socket ∧ c'.data = c.shared.data := by
  have hsuspended : c.shared.situation.Suspended := (dropsHarmless_safe h).of_suspends hsuspends rfl
  have hunused : c.shared.situation.Unused := by
    have hstate : c.shared.situation.connState.intermediate := hattempt
    cases hsuspended with
    | unused h => exact h
    | serves h => rcases h.state with hs | hs <;> simp [hs, ConnectionState.intermediate] at hstate
    | sleeps h => simp [h.state, ConnectionState.intermediate] at hstate
    | closes h => simp [h.state, ConnectionState.intermediate] at hstate
  have hdropped := hunused.dropped (b := b)
  rw [← dropped_situation] at hdropped
  refine ⟨c.shared.dropped b, ?_, hdropped.2, ?_, ?_⟩
  · rw [Config.step, userStep_drop]
    rfl
  · exact hdropped.1.socket.trans hunused.socket.symm
  · exact hdropped.1.data.trans hunused.data.symm

/-- The worker waits for the server, and the connection drops before the server accepts. -/
def overtakenEvents : List ConnectionEvent :=
  callEvents (.connect tcpUrl) ++ attemptEvents ++ [.own .pending, .other (.simulateConnectionDrop true)] ++
    acceptEvents ++ connectedEvents

/-- The attempt succeeds all the same. -/
theorem simulateConnectionDrop_attempt_connected : ∃ c, @Running plainHost DropsHarmless c ∧
    @runConnection plainHost overtakenEvents = some c ∧ c.shared.connState = .connected := by
  obtain ⟨c, hrun, hstate⟩ := Option.map_eq_some_iff.mp (show (@runConnectionIf plainHost
    (fun c e => decide (DropsHarmless c e)) overtakenEvents).map (·.shared.connState) = some .connected by
      decide +kernel)
  exact ⟨c, @Running.of_runIf plainHost _ _ _ _ (fun _ _ hpass => of_decide_eq_true hpass) hrun,
    @runConnection_of_runIf plainHost _ _ _ hrun, hstate⟩

/-- A connected worker waits, and the connection drops. -/
def dropEvents : List ConnectionEvent :=
  List.replicate 5 (.own .ready) ++ [.own .pending, .other (.simulateConnectionDrop true), .own .woken]

/-- An attempt to reconnect that the server accepts. -/
def reconnectedEvents : List ConnectionEvent :=
  List.replicate 11 (.own .ready) ++ [.own (.result (.ok ())), .own (.elapsed 0), .own (.elapsed 0)] ++
    List.replicate 2 (.own .ready) ++ [.own (.handshake (some (.ok .reconnectSuccess)))] ++
    List.replicate 7 (.own .ready)

theorem simulateConnectionDrop_safe_reconnected : ∃ c, @runConnection plainHost (callEvents (.connect tcpUrl) ++
    attemptEvents ++ acceptEvents ++ connectedEvents ++ dropEvents ++ reconnectedEvents) = some c ∧
    c.shared.connState = .connected ∧ c.shared.view.Engaged := by
  obtain ⟨c, hrun, hend⟩ := Option.map_eq_some_iff.mp (show (@runConnectionIf plainHost
    (fun c e => decide (DropsHarmless c e)) (callEvents (.connect tcpUrl) ++ attemptEvents ++ acceptEvents ++
      connectedEvents ++ dropEvents ++ reconnectedEvents)).map (fun c => (c.shared.connState, c.task.returned)) =
        some (.connected, true) by decide +kernel)
  simp only [Prod.mk.injEq] at hend
  have hruns : @Running plainHost DropsHarmless c :=
    @Running.of_runIf plainHost _ _ _ _ (fun _ _ hpass => of_decide_eq_true hpass) hrun
  exact ⟨c, @runConnection_of_runIf plainHost _ _ _ hrun, hend.1,
    (@simulateConnectionDrop_safe plainHost c hruns).2.1 (Or.inr hend.2) hend.1⟩

/-- A worker that reconnects waits for its new socket, and the connection drops. -/
def interruptedEvents (ready : Nat) : List ConnectionEvent :=
  List.replicate ready (.own .ready) ++ [.own .pending, .other (.simulateConnectionDrop true)]

/-- The socket is there. -/
def socketEvents : List ConnectionEvent :=
  [.own (.result (.ok ())), .own (.elapsed 0), .own (.elapsed 0), .own .ready]

/-- The server accepts a stateless attempt, and the pass ends. -/
def statelessEvents : List ConnectionEvent :=
  [.own (.handshake (some (.ok (.handshakeFinish ⟨5, none⟩)))), .own (.result (.ok ()))] ++
    List.replicate 7 (.own .ready)

/-- Drops wherever the worker is suspended: one during a reconnect resets the socket that is in use, and the worker reads
the empty socket; one during a stateless reconnect leads to `Connected` without a stored address. -/
theorem simulateConnectionDrop_unsafe :
    (∃ c, @Running plainHost DropsSuspended c ∧ c.task.suspends = true ∧
      ∃ c', userStep (.simulateConnectionDrop true) c.shared = some c' ∧ ¬ DropSafe c.shared c') ∧
    (∃ c, @Running plainHost DropsSuspended c ∧ c.task = .abort .emptySocket) ∧
    ∃ c, @Running plainHost DropsSuspended c ∧ c.task.returned = true ∧ c.shared.connState = .connected ∧
      c.shared.data.address = none := by
  have hruns : ∀ {events c}, @runConnectionIf plainHost (fun c e => decide (DropsSuspended c e)) events = some c →
      @Running plainHost DropsSuspended c := fun hrun =>
    @Running.of_runIf plainHost _ _ _ _ (fun _ _ hpass => of_decide_eq_true hpass) hrun
  refine ⟨?_, ?_, ?_⟩
  · obtain ⟨c, hrun, hend⟩ := Option.map_eq_some_iff.mp (show (@runConnectionIf plainHost
      (fun c e => decide (DropsSuspended c e)) (callEvents (.connect tcpUrl) ++ attemptEvents ++ acceptEvents ++
        connectedEvents ++ lostEvents ++ (interruptedEvents 11).take 12)).map (fun c =>
          (c.task.suspends, c.shared.connState, c.shared.socket.isSome, asleep c.shared.history)) =
            some (true, .reconnecting, true, false) by decide +kernel)
    simp only [Prod.mk.injEq] at hend
    obtain ⟨hsuspends, hstate, hsocket, huse⟩ := hend
    exact ⟨c, hruns hrun, hsuspends, _, userStep_drop true c.shared, not_dropSafe (by simp [hstate]) hsocket huse⟩
  · obtain ⟨c, hrun, hend⟩ := Option.map_eq_some_iff.mp (show (@runConnectionIf plainHost
      (fun c e => decide (DropsSuspended c e)) (callEvents (.connect tcpUrl) ++ attemptEvents ++ acceptEvents ++
        connectedEvents ++ lostEvents ++ interruptedEvents 11 ++ socketEvents)).map (fun c => c.task.aborted) =
          some (some .emptySocket) by decide +kernel)
    exact ⟨c, hruns hrun, Task.eq_abort hend⟩
  · obtain ⟨c, hrun, hend⟩ := Option.map_eq_some_iff.mp (show (@runConnectionIf plainHost
      (fun c e => decide (DropsSuspended c e)) (callEvents (.connect tcpUrl) ++ attemptEvents ++ acceptEvents ++
        connectedEvents ++ lostEvents ++ rejectedEvents ++ interruptedEvents 10 ++ socketEvents ++
          statelessEvents)).map (fun c => (c.task.returned, c.shared.connState, c.shared.data.address)) =
            some (true, .connected, none) by decide +kernel)
    simp only [Prod.mk.injEq] at hend
    exact ⟨c, hruns hrun, hend⟩

end Qunet
