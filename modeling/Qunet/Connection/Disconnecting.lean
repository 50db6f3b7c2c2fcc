import Qunet.Connection.Rules

/-!
# Disconnecting

`disconnect` leaves a flag, which `resetConnectionState` clears, and wakes the worker if it waits. When is it final?

* `halted` : `disconnect` has returned, and no `connect` has returned `Ok` since;
* `obeyed` : the worker has begun no attempt and not become connected while halted;
* `Phase`, `phase` : whether the worker is between a request, or its look at the flag, and the end of what follows;
* `Noticed`, `Heeded` : the calls of `disconnect`, and the steps of the worker, that do not lose the request;
* `disconnectedPass_watch`, `connectedPass_watch`, … : one rule for each function;
* **`disconnect_final`** : every run of such calls and steps.
-/

namespace Qunet
open Lib Relation

/-! ## What a history says -/

def haltedAfter : Event → Bool → Bool
  | .disconnectReturned, _ => true
  | .connectOk _, _ => false
  | _, b => b

/-- `disconnect` has returned, and no `connect` has returned `Ok` since. -/
def halted : List Event → Bool
  | [] => false
  | e :: history => haltedAfter e (halted history)

/-- The worker begins an attempt, or becomes connected. -/
def Event.engages : Event → Bool
  | .threadConnect _ => true
  | .exchange _ state _ => state = .connected
  | _ => false

def obeyed : List Event → Bool
  | [] => true
  | e :: history => !(halted history && e.engages) && obeyed history

inductive Phase where
  | idle
  /-- The worker has taken a request. -/
  | connecting
  /-- It has not found a request to disconnect. -/
  | waking
  deriving DecidableEq

def phaseAfter : Event → Phase → Phase
  | .dequeued _, _ => .connecting
  | .loaded requested, _ => if requested then .idle else .waking
  | .selected, _ => .idle
  | .processed, _ => .idle
  | .exchange _ state _, p => if state.intermediate then p else .idle
  | _, p => p

def phase : List Event → Phase
  | [] => .idle
  | e :: history => phaseAfter e (phase history)

/-! ## What matters for a request to disconnect -/

structure Watch where
  halted : Bool
  phase : Phase
  state : ConnectionState
  requested : Bool
  waiter : Option Bool
  queued : List Text
  attempts : UInt16

def Connection.watch (c : Connection) : Watch :=
  ⟨halted c.history, phase c.history, c.connState, c.disconnectReq, c.disconnectNotify, c.connectChan.items,
    c.data.reconnectAttempt⟩

/-- `disconnect` returns when no request is queued, the worker waits for the notification unless it has nothing to do,
and the flag is still there if it will be looked at. -/
structure Noticed (suspends : Bool) (w : Watch) : Prop where
  queued : w.queued = []
  waits : w.phase ≠ .idle → suspends = true ∧ w.waiter.isSome
  requested : w.state = .connected ∨ w.state = .reconnecting → w.requested = true

/-- How the public functions change what matters. -/
inductive WatchStep (suspends : Bool) (w : Watch) : Watch → Prop where
  | refl : WatchStep suspends w w
  | request : WatchStep suspends w { w with requested := true }
  | connect (destination : Text) :
      WatchStep suspends w { w with halted := false, queued := w.queued ++ [destination] }
  | disconnect (h : Noticed suspends w) :
      WatchStep suspends w { w with halted := true, waiter := w.waiter.map fun _ => true }

/-- A step of a public function: no drop is simulated, and `disconnect` is noticed. -/
def UserEvent.Heeded (suspends : Bool) (c : Connection) : UserEvent → Prop
  | .finish i => c.calls[i]? = some .disconnect → Noticed suspends c.watch
  | .simulateConnectionDrop _ => False
  | _ => True

/-- The predicate on a connection: the worker has obeyed so far, and no request is queued while halted. -/
def Watched (p : Watch → Prop) (c : Connection) : Prop :=
  obeyed c.history = true ∧ (c.watch.halted = true → c.watch.queued = []) ∧ p c.watch

theorem userStep_watch {suspends : Bool} {e : UserEvent} {c c' : Connection} (he : e.Heeded suspends c)
    (h : userStep e c = some c') :
    WatchStep suspends c.watch c'.watch ∧ (obeyed c.history = true → obeyed c'.history = true) := by
  cases userStep_change h with
  | enter call calls => exact ⟨.refl, id⟩
  | request calls => exact ⟨.request, id⟩
  | @connectOk i destination chan calls hcall hsend =>
    refine ⟨?_, fun hobeyed => by simpa [obeyed, Connection.log, Event.engages] using hobeyed⟩
    have hstep : WatchStep suspends c.watch _ := .connect destination
    simpa [Connection.watch, Connection.log, Channel.trySend_items hsend, halted, haltedAfter, phase, phaseAfter]
      using hstep
  | accepted calls hcall hsend =>
    exact ⟨.refl, fun hobeyed => by simpa [obeyed, Connection.log, Event.engages] using hobeyed⟩
  | refused calls hcall hne => exact ⟨.refl, id⟩
  | disconnected calls hcall =>
    exact ⟨.disconnect (he hcall), fun hobeyed => by simpa [obeyed, Connection.log, Event.engages] using hobeyed⟩
  | settings settings => exact ⟨.refl, id⟩
  | drop b => cases he

/-! ## The contract -/

/-- A wait in an attempt to connect ends with the notification, if it has arrived. -/
def disconnectContract : Contract Connection Answer Abort where
  rely suspends c c' := (∃ e : UserEvent, e.Heeded suspends c ∧ userStep e c = some c') ∨
    (suspends = false ∧ c' = disconnectWaiter.register c)
  admits suspends c r := suspends = true → c.watch.phase = .connecting → disconnectWaiter.notified c = true →
    disconnectWaiter.interrupts r = true
  inv suspends c := obeyed c.history = true ∧ (suspends = true → c.watch.halted = true →
    (c.watch.phase ≠ .idle → c.watch.waiter = some true) ∧ (c.watch.state = .connected → c.watch.requested = true))
  aborts _ c := obeyed c.history = true

namespace Watch

/-- When a pass begins. -/
structure Settled (w : Watch) : Prop where
  phase : w.phase = .idle
  requested : w.halted = true → w.state = .connected ∨ w.state = .reconnecting → w.requested = true
  attempts : w.attempts.toNat ≤ 6

/-- While an attempt is made. -/
structure Engaged (p : Phase) (w : Watch) : Prop where
  phase : w.phase = p
  halted : w.halted = false
  state : w.state ≠ .connected
  attempts : w.attempts.toNat ≤ 6

/-- While an attempt waits: a worker that is to stop has been notified. -/
structure Waiting (p : Phase) (w : Watch) : Prop where
  phase : w.phase = p
  waiter : w.waiter.isSome
  notified : w.halted = true → w.waiter = some true
  state : w.state ≠ .connected

/-- While a connected worker has found no request. -/
structure Connected (w : Watch) : Prop where
  phase : w.phase = .waking
  halted : w.halted = false
  state : w.state = .connected
  attempts : w.attempts.toNat ≤ 6

/-- While it waits. -/
structure Selecting (w : Watch) : Prop where
  state : w.state = .connected
  waiter : w.waiter.isSome
  notified : w.halted = true → w.waiter = some true ∧ w.requested = true
  attempts : w.attempts.toNat ≤ 6

/-- What the others leave of a predicate; the waiter matters only while the worker waits. -/
structure Stable (suspends : Bool) (p : Watch → Prop) : Prop where
  step : ∀ w w', p w → WatchStep suspends w w' → p w'
  waiter : suspends = false → ∀ w waiter, p w → p { w with waiter }

theorem stable_any : Stable false fun _ => True := ⟨fun _ _ _ _ => trivial, fun _ _ _ _ => trivial⟩

theorem stable_settled (suspends : Bool) : Stable suspends Settled := by
  refine ⟨fun w w' h hstep => ?_, fun _ w waiter h => ⟨h.phase, h.requested, h.attempts⟩⟩
  cases hstep with
  | refl => exact h
  | request => exact ⟨h.phase, fun _ _ => rfl, h.attempts⟩
  | connect destination => exact ⟨h.phase, fun hhalted => (by cases hhalted), h.attempts⟩
  | disconnect hnoticed => exact ⟨h.phase, fun _ => hnoticed.requested, h.attempts⟩

/-- While the worker does something, nobody's `disconnect` is noticed. -/
theorem not_noticed {w : Watch} (hphase : w.phase ≠ .idle) : ¬ Noticed false w := fun h => by
  cases (h.waits hphase).1

theorem stable_engaged {p : Phase} (hp : p ≠ .idle) : Stable false (Engaged p) := by
  refine ⟨fun w w' h hstep => ?_, fun _ w waiter h => ⟨h.phase, h.halted, h.state, h.attempts⟩⟩
  cases hstep with
  | refl => exact h
  | request => exact ⟨h.phase, h.halted, h.state, h.attempts⟩
  | connect destination => exact ⟨h.phase, rfl, h.state, h.attempts⟩
  | disconnect hnoticed => exact absurd hnoticed (not_noticed (h.phase ▸ hp))

theorem stable_waiting {p : Phase} : Stable true (Waiting p) := by
  refine ⟨fun w w' h hstep => ?_, fun hrun => (by cases hrun)⟩
  cases hstep with
  | refl => exact h
  | request => exact ⟨h.phase, h.waiter, h.notified, h.state⟩
  | connect destination => exact ⟨h.phase, h.waiter, fun hhalted => (by cases hhalted), h.state⟩
  | disconnect hnoticed =>
    obtain ⟨b, hb⟩ := Option.isSome_iff_exists.mp h.waiter
    exact ⟨h.phase, by simp [hb], fun _ => by simp [hb], h.state⟩

theorem stable_connected : Stable false Connected := by
  refine ⟨fun w w' h hstep => ?_, fun _ w waiter h => ⟨h.phase, h.halted, h.state, h.attempts⟩⟩
  cases hstep with
  | refl => exact h
  | request => exact ⟨h.phase, h.halted, h.state, h.attempts⟩
  | connect destination => exact ⟨h.phase, rfl, h.state, h.attempts⟩
  | disconnect hnoticed => exact absurd hnoticed (not_noticed (by simp [h.phase]))

theorem stable_selecting : Stable true Selecting := by
  refine ⟨fun w w' h hstep => ?_, fun hrun => (by cases hrun)⟩
  cases hstep with
  | refl => exact h
  | request => exact ⟨h.state, h.waiter, fun hhalted => ⟨(h.notified hhalted).1, rfl⟩, h.attempts⟩
  | connect destination => exact ⟨h.state, h.waiter, fun hhalted => (by cases hhalted), h.attempts⟩
  | disconnect hnoticed =>
    obtain ⟨b, hb⟩ := Option.isSome_iff_exists.mp h.waiter
    exact ⟨h.state, by simp [hb], fun _ => ⟨by simp [hb], hnoticed.requested (Or.inl h.state)⟩, h.attempts⟩

end Watch

theorem Watched.step {suspends : Bool} {p : Watch → Prop} (hp : Watch.Stable suspends p) {e : UserEvent}
    {c c' : Connection} (hc : Watched p c) (he : e.Heeded suspends c) (h : userStep e c = some c') : Watched p c' := by
  obtain ⟨hobeyed, hqueued, hw⟩ := hc
  obtain ⟨hstep, hkeeps⟩ := userStep_watch he h
  refine ⟨hkeeps hobeyed, ?_, hp.step _ _ hw hstep⟩
  generalize c'.watch = w' at hstep
  cases hstep with
  | refl => exact hqueued
  | request => exact hqueued
  | connect destination => exact fun hhalted => by cases hhalted
  | disconnect hnoticed => exact fun _ => hnoticed.queued

theorem Watch.Stable.holds {suspends : Bool} {p : Watch → Prop} (hp : Watch.Stable suspends p)
    (hwait : suspends = true → ∀ w, p w → w.halted = true →
      (w.phase ≠ .idle → w.waiter = some true) ∧ (w.state = .connected → w.requested = true)) :
    disconnectContract.Holds suspends (Watched p) := by
  refine ⟨fun c hc => ⟨hc.1, fun hsuspends => hwait hsuspends _ hc.2.2⟩, ?_⟩
  rintro c c' hc (⟨e, he, hstep⟩ | ⟨hrun, rfl⟩)
  · exact hc.step hp he hstep
  · exact ⟨hc.1, hc.2.1, hp.waiter hrun _ _ hc.2.2⟩

theorem Watch.Stable.runs {p : Watch → Prop} (hp : Watch.Stable false p) :
    disconnectContract.Holds false (Watched p) :=
  hp.holds fun h => by cases h

theorem settled_waits : disconnectContract.Holds true (Watched Watch.Settled) :=
  (Watch.stable_settled true).holds fun _ _ hw hhalted =>
    ⟨fun hphase => absurd hw.phase hphase, fun hstate => hw.requested hhalted (Or.inl hstate)⟩

theorem selecting_waits : disconnectContract.Holds true (Watched Watch.Selecting) :=
  Watch.stable_selecting.holds fun _ _ hw hhalted =>
    ⟨fun _ => (hw.notified hhalted).1, fun _ => (hw.notified hhalted).2⟩

theorem waiting_waits {p : Phase} : disconnectContract.Holds true (Watched (Watch.Waiting p)) :=
  Watch.stable_waiting.holds fun _ _ hw hhalted => ⟨fun _ => hw.notified hhalted, fun hstate => absurd hstate hw.state⟩

/-! ## Races -/

/-- A step that does not wake the worker is one that it could tolerate without waiting. -/
theorem heeded_quiet {e : UserEvent} {c c' : Connection} (he : e.Heeded true c) (h : userStep e c = some c')
    (hwaiter : c.disconnectNotify.isSome) (hquiet : disconnectWaiter.notified c' = false) :
    e.Heeded false c ∧ disconnectWaiter.notified c = false := by
  cases userStep_change h with
  | enter call calls => exact ⟨trivial, hquiet⟩
  | request calls => exact ⟨trivial, hquiet⟩
  | connectOk calls hcall hsend => exact ⟨fun hother => (by rw [hcall] at hother; cases hother), hquiet⟩
  | accepted calls hcall hsend => exact ⟨fun hother => (by rw [hcall] at hother; cases hother), hquiet⟩
  | refused calls hcall hne =>
    exact ⟨fun hother => absurd (Option.some.inj (hcall.symm.trans hother)) hne, hquiet⟩
  | disconnected calls hcall =>
    obtain ⟨b, hb⟩ := Option.isSome_iff_exists.mp hwaiter
    simp [disconnectWaiter, Connection.log, hb] at hquiet
  | settings settings => exact ⟨trivial, hquiet⟩
  | drop b => cases he

theorem quiet_wait {p : Phase} {c c' : Connection} (hc : Watched (Watch.Waiting p) c)
    (h : ReflTransGen (disconnectContract.rely true) c c') (hquiet : disconnectWaiter.notified c' = false) :
    ReflTransGen (disconnectContract.rely false) c c' := by
  induction h with
  | refl => exact .refl
  | tail hstar hstep ih =>
    obtain ⟨e, he, hnext⟩ | ⟨hrun, -⟩ := hstep
    · have hwaiting := waiting_waits.star hc hstar
      obtain ⟨he', hquiet'⟩ := heeded_quiet he hnext hwaiting.2.2.waiter hquiet
      exact (ih hquiet').tail (Or.inl ⟨e, he', hnext⟩)
    · cases hrun

theorem Watched.register {p : Phase} {c : Connection} (hc : Watched (Watch.Engaged p) c) :
    Watched (Watch.Waiting p) (disconnectWaiter.register c) := by
  obtain ⟨hobeyed, hqueued, hw⟩ := hc
  refine ⟨hobeyed, hqueued, hw.phase, rfl, fun hhalted => ?_, hw.state⟩
  exact absurd (hw.halted.symm.trans hhalted) Bool.false_ne_true

/-- What an attempt that is raced against the notification keeps. -/
def engagedContract (p : Phase) : Contract Connection Answer Abort where
  rely _ := disconnectContract.rely false
  admits _ _ _ := True
  inv suspends c := if suspends then Watched (Watch.Engaged p) c else obeyed c.history = true
  aborts _ c := obeyed c.history = true

theorem engaged_holds {p : Phase} (hp : p ≠ .idle) (suspends : Bool) :
    (engagedContract p).Holds suspends (Watched (Watch.Engaged p)) := by
  refine ⟨fun c hc => ?_, (Watch.stable_engaged hp).runs.stable⟩
  cases suspends
  · exact hc.1
  · exact hc

theorem engagedContract_runs {p : Phase} {q : Watch → Prop} (hq : Watch.Stable false q) :
    (engagedContract p).Holds false (Watched q) :=
  ⟨fun _ hc => hc.1, hq.runs.stable⟩

/-- A race whose notification is heeded: either it is polled first, or the attempt is one to connect. -/
theorem race_watch {α : Type} {p : Phase} {q : α → Watch → Prop} {t : Worker α} {first : Bool}
    (hfirst : first = true ∨ p = .connecting) (hq : ∀ a, Watch.Stable false (q a))
    (h : Triple (engagedContract p) (Watched (Watch.Engaged p)) t fun a => Watched (q a)) :
    Triple disconnectContract (Watched (Watch.Engaged p)) (t.race disconnectWaiter first)
      fun r c => r.elim (Watched (fun _ => True) c) fun a => Watched (q a) c := by
  have hrule : RaceRule disconnectContract (engagedContract p) disconnectWaiter first (fun a => Watched (q a))
      fun r c => r.elim (Watched (fun _ => True) c) fun a => Watched (q a) c := by
    refine ⟨fun _ _ _ hstar => hstar, ?_, fun _ _ _ _ => trivial, fun _ _ habort => habort, ?_, ?_⟩
    · intro suspends c hc
      cases suspends with
      | false => exact ⟨hc, fun h => by cases h⟩
      | true => exact ⟨hc.1, fun h => by cases h⟩
    · intro c c₁ c₂ hinv hrun hwait
      have hengaged : Watched (Watch.Engaged p) c₁ := hinv c₁ hrun
      have hregistered := hengaged.register
      have hwaiting := waiting_waits.star hregistered hwait
      refine ⟨waiting_waits.inv _ hwaiting, fun _ => ⟨hwaiting.1, hwaiting.2.1, trivial⟩, fun r hr hgoes => ?_⟩
      have hquiet : disconnectWaiter.notified c₂ = false := by
        by_contra hnotified
        rw [Bool.not_eq_false] at hnotified
        rcases hfirst with rfl | rfl
        · simp [hnotified] at hgoes
        · simp [hnotified, hr rfl hwaiting.2.2.phase hnotified] at hgoes
      exact ⟨((hrun.tail (Or.inr ⟨rfl, rfl⟩)).trans (quiet_wait hregistered hwait hquiet)), trivial⟩
    · intro a c c' hc hstar
      have hc' := (hq a).runs.star hc hstar
      exact ⟨(hq a).runs.inv _ hc', hc'.1, hc'.2.1, (hq a).waiter rfl _ none hc'.2.2⟩
  exact fun c hc => Safe.race hrule (h c hc)

/-! ## Steps of the worker -/

/-- An event of the worker that does not count. -/
structure Event.Calm (e : Event) : Prop where
  halted : ∀ b, haltedAfter e b = b
  phase : ∀ p, phaseAfter e p = p
  engages : e.engages = false

def Watch.exchange (state : ConnectionState) (w : Watch) : Watch :=
  { w with state, phase := if state.intermediate then w.phase else .idle }

section
variable {p q : Watch → Prop} {c : Connection} {e : Event} {state : ConnectionState}

theorem Watched.log (hc : Watched p c) (hhalted : ∀ b, haltedAfter e b = b)
    (hengages : e.engages = true → c.watch.halted = false)
    (h : ∀ w, p w → q { w with phase := phaseAfter e w.phase }) : Watched q (c.log e) := by
  have hwatch : (c.log e).watch = { c.watch with phase := phaseAfter e c.watch.phase } := by
    show (⟨haltedAfter e _, _, _, _, _, _, _⟩ : Watch) = _
    rw [hhalted]
    rfl
  refine ⟨?_, by rw [hwatch]; exact hc.2.1, by rw [hwatch]; exact h _ hc.2.2⟩
  show (!(c.watch.halted && e.engages) && obeyed c.history) = true
  cases he : e.engages with
  | false => simpa using hc.1
  | true => simpa [hengages he] using hc.1

theorem Watched.calm (hc : Watched p c) (he : e.Calm) : Watched p (c.log e) :=
  hc.log he.halted (fun h => by simp [he.engages] at h) fun w hw => by
    rw [he.phase]
    exact hw

theorem Watched.exchange (hc : Watched p c) (hconnected : state = .connected → c.watch.halted = false)
    (h : ∀ w, p w → q (w.exchange state)) : Watched q (c.exchange state) := by
  have hstate : Watched (fun w => q { w with phase := if state.intermediate then w.phase else .idle })
      { c with connState := state } := ⟨hc.1, hc.2.1, h c.watch hc.2.2⟩
  exact hstate.log (fun _ => rfl) (fun hengages => hconnected (by simpa [Event.engages] using hengages)) fun _ hw => hw

theorem Watched.mono (hc : Watched p c) (h : ∀ w, p w → q w) : Watched q c := ⟨hc.1, hc.2.1, h _ hc.2.2⟩

theorem setState_watch (hp : Watch.Stable false p) (hstate : state ≠ .connected)
    (h : ∀ w, p w → (w.exchange state).Settled) :
    Triple disconnectContract (Watched p) (setState state) fun _ => Watched Watch.Settled :=
  setState_triple_of_ne hstate hp.runs (Watch.stable_settled false).runs
    (fun _ hc => hc.exchange (fun h => absurd h hstate) h) fun _ hc => hc.calm ⟨fun _ => rfl, fun _ => rfl, rfl⟩

theorem threadCancelConnection_watch :
    Triple disconnectContract (Watched p) threadCancelConnection fun _ => Watched Watch.Settled := by
  have hbounded : Watch.Stable false fun w => w.attempts.toNat ≤ 6 := by
    refine ⟨fun w w' h hstep => ?_, fun _ _ _ h => h⟩
    cases hstep <;> exact h
  have hdata : Triple disconnectContract (Watched p) (.act fun c => { c with data := {} })
      fun _ => Watched fun w => w.attempts.toNat ≤ 6 :=
    (Triple.act Watch.stable_any.runs fun c hc => ⟨hc.1, hc.2.1, by simp [Connection.watch]⟩).pre fun _ hc =>
      hc.mono fun _ _ => trivial
  have hflag : Triple disconnectContract (Watched fun w => w.attempts.toNat ≤ 6)
      (.act fun c => { c with disconnectReq := false }) fun _ => Watched fun w => w.attempts.toNat ≤ 6 :=
    .act hbounded.runs fun _ hc => hc
  have hsocket : Triple disconnectContract (Watched fun w => w.attempts.toNat ≤ 6)
      (.act fun c => { c with socket := none }) fun _ => Watched fun w => w.attempts.toNat ≤ 6 :=
    .act hbounded.runs fun _ hc => hc
  exact (hdata.bind fun _ => hflag.bind fun _ => hsocket).bind fun _ =>
    setState_watch hbounded (by simp) fun w hw => ⟨rfl, fun _ h => by simp [Watch.exchange] at h, hw⟩

theorem act_watch {f : Connection → Connection} (hp : Watch.Stable false p) (hf : ∀ c, Watched p c → Watched q (f c)) :
    Triple disconnectContract (Watched p) (.act f) fun _ => Watched q :=
  .act hp.runs hf

theorem drainMessages_watch (hp : Watch.Stable false p) :
    Triple disconnectContract (Watched p) drainMessages fun _ => Watched p :=
  act_watch hp fun c hc => by
    have hempty : Watched p { c with msgChan := .empty } := hc
    exact hempty.calm ⟨fun _ => rfl, fun _ => rfl, rfl⟩

/-- Without simulated drops, the state is still the one that was read. -/
theorem Watch.Stable.reading (hp : Watch.Stable false p) : Watch.Stable false fun w => p w ∧ w.state = state := by
  refine ⟨fun w w' h hstep => ⟨hp.step w w' h.1 hstep, ?_⟩, fun hrun w waiter h => ⟨hp.waiter hrun w waiter h.1, h.2⟩⟩
  cases hstep <;> exact h.2

theorem readState_watch (hp : Watch.Stable false p) : Triple disconnectContract (Watched p) (.read (·.connState))
    fun state => Watched fun w => p w ∧ w.state = state :=
  .read hp.runs fun _ hc => ⟨hc.1, hc.2.1, hc.2.2, rfl⟩

theorem onFatalError_watch (hp : Watch.Stable false p) (e : ConnectionError)
    (hreconnect : ∀ w, p w → w.state = .connected → (w.exchange .reconnecting).Settled) :
    Triple disconnectContract (Watched p) (onFatalError e) fun _ => Watched Watch.Settled := by
  refine Triple.bind (Q := fun _ => Watched p) (act_watch hp fun _ hc => hc) fun _ => ?_
  refine (readState_watch hp).bind fun state => ?_
  refine Triple.bind (Q := fun _ => Watched fun w => p w ∧ w.state = state)
    (.ask hp.reading.runs fun _ _ _ hc _ => hc) fun shouldReconnect => ?_
  split
  · next hstate =>
    refine (drainMessages_watch hp.reading).bind fun _ => setState_watch hp.reading (by simp) fun w hw => ?_
    exact hreconnect w hw.1 (hw.2.trans hstate.1)
  · exact threadCancelConnection_watch

end

/-! ## Connecting -/

theorem ConnectStep.watch {c c' : Connection} (hc : Watched (Watch.Engaged .connecting) c) (h : ConnectStep c c') :
    Watched (Watch.Engaged .connecting) c' := by
  obtain ⟨hobeyed, hqueued, hw⟩ := id hc
  cases h with
  | refl => exact hc
  | log e he =>
    have hsame : (∀ b, haltedAfter e b = b) ∧ ∀ p, phaseAfter e p = p := by
      cases e <;> first | exact ⟨fun _ => rfl, fun _ => rfl⟩ | cases he
    refine hc.log hsame.1 (fun _ => hw.halted) fun w hw => ?_
    rw [hsame.2]
    exact hw
  | exchange state hstate =>
    have hne : state ≠ .connected := by
      rintro rfl
      cases hstate
    refine hc.exchange (fun h => absurd h hne) fun w hw => ⟨?_, hw.halted, hne, hw.attempts⟩
    simpa [Watch.exchange, hstate] using hw.phase
  | data data hdata =>
    refine ⟨hobeyed, hqueued, hw.phase, hw.halted, hw.state, ?_⟩
    rcases hdata with hzero | hsame
    · simp [Connection.watch, hzero]
    · simpa [Connection.watch, hsame] using hw.attempts
  | request => exact ⟨hobeyed, hqueued, hw.phase, hw.halted, hw.state, hw.attempts⟩
  | target => exact hc
  | socket => exact hc

theorem setState_connected_watch {C : Contract Connection Answer Abort} {p : Phase}
    (hengaged : C.Holds false (Watched (Watch.Engaged p))) (hsettled : C.Holds false (Watched Watch.Settled)) :
    Triple C (Watched (Watch.Engaged p)) (setState .connected) fun _ => Watched Watch.Settled := by
  have hexchange : ∀ c, Watched (Watch.Engaged p) c → Watched Watch.Settled (c.exchange .connected) := fun c hc => by
    have hhalted := hc.2.2.halted
    refine (hc.exchange (fun _ => hhalted) fun w hw => ?_)
    exact ⟨rfl, fun h => absurd (hw.halted.symm.trans h) Bool.false_ne_true, hw.attempts⟩
  refine setState_triple hengaged hsettled hsettled (fun c hc _ => hexchange c hc) (fun c hc _ => hexchange c hc)
    (fun _ _ h => absurd rfl h) (fun _ hc _ => hc.calm ⟨fun _ => rfl, fun _ => rfl, rfl⟩) fun c hc _ => ?_
  exact ⟨hc.1, hc.2.1, hc.2.2.phase, hc.2.2.requested, by simp [Connection.watch, Connection.resetAttempts]⟩

theorem finishConnect_watch (r : Option (ConnectionResult Unit)) :
    Triple disconnectContract (fun c => r.elim (Watched (fun _ => True) c)
      fun _ => Watched (Watch.Engaged .connecting) c) (finishConnect r) fun _ => Watched Watch.Settled := by
  have hstable : Watch.Stable false (Watch.Engaged .connecting) := Watch.stable_engaged (by simp)
  have hdrain := drainMessages_watch (Watch.stable_settled false)
  rcases r with _ | e | ⟨⟩
  · exact threadCancelConnection_watch (p := fun _ => True)
  · exact (onFatalError_watch hstable e fun w hw hstate => absurd hstate hw.state).bind fun _ => hdrain
  · have herror : Triple disconnectContract (Watched Watch.Settled) (setLastError (.other .success))
        fun _ => Watched Watch.Settled :=
      act_watch (Watch.stable_settled false) fun _ hc => hc
    exact (setState_connected_watch hstable.runs (Watch.stable_settled false).runs).bind fun _ =>
      herror.bind fun _ => hdrain

theorem disconnectedPass_watch [Host] :
    Triple disconnectContract (Watched fun w => w.Settled ∧ w.state = .disconnected) disconnectedPass
      fun _ => Watched Watch.Settled := by
  have hrecv : Triple disconnectContract (Watched fun w => w.Settled ∧ w.state = .disconnected) recvRequest
      fun _ => Watched (Watch.Engaged .connecting) := by
    have hwaits : disconnectContract.Holds true (Watched fun w => w.Settled ∧ w.state = .disconnected) := by
      refine Watch.Stable.holds ⟨fun w w' h hstep => ⟨(Watch.stable_settled true).step w w' h.1 hstep, ?_⟩,
        fun hrun => (by cases hrun)⟩ fun _ w hw _ => ⟨fun hphase => absurd hw.1.phase hphase, fun hstate => ?_⟩
      · cases hstep <;> exact h.2
      · rw [hw.2] at hstate
        cases hstate
    refine recvRequest_triple hwaits fun c url chan hc hready => ?_
    -- a request is queued, so that the worker is not halted
    have hhalted : c.watch.halted = false := by
      by_contra hnot
      have hempty : c.connectChan.items = [] := hc.2.1 (by simpa using hnot)
      rw [Channel.recv_items hready] at hempty
      cases hempty
    have htaken : Watched (fun w => w.halted = false ∧ w.state = .disconnected ∧ w.attempts.toNat ≤ 6)
        { c with connectChan := chan } :=
      ⟨hc.1, fun h => absurd (hhalted.symm.trans h) Bool.false_ne_true, hhalted, hc.2.2.2, hc.2.2.1.attempts⟩
    exact htaken.log (fun _ => rfl) (fun h => by cases h) fun w hw => ⟨rfl, hw.1, by simp [hw.2.1], hw.2.2⟩
  refine hrecv.bind fun url => ?_
  have hattempt : Triple (engagedContract .connecting) (Watched (Watch.Engaged .connecting)) (threadConnect url)
      fun _ => Watched (Watch.Engaged .connecting) :=
    (threadConnect_connects url).triple (fun _ _ hc hstep => hstep.watch hc) (fun _ _ _ hc => hc.1)
      (engaged_holds (by simp) false) (engaged_holds (by simp) true)
  refine (race_watch (Or.inr rfl) (fun _ => Watch.stable_engaged (by simp)) hattempt).bind fun r => ?_
  refine (finishConnect_watch r).bind fun _ => act_watch (Watch.stable_settled false) fun c hc => ?_
  exact hc.log (fun _ => rfl) (fun h => by cases h) fun w hw => ⟨rfl, hw.requested, hw.attempts⟩

/-! ## Connected and closing -/

theorem fatal_watch (e : ConnectionError) :
    Triple disconnectContract (Watched Watch.Settled) (onFatalError e) fun _ => Watched Watch.Settled :=
  onFatalError_watch (Watch.stable_settled false) e fun _ hw hstate =>
    ⟨rfl, fun hhalted _ => hw.requested hhalted (Or.inl hstate), hw.attempts⟩

theorem wakeRule_watch : WakeRule disconnectContract (Watched Watch.Settled) (Watched Watch.Settled) where
  runs := (Watch.stable_settled false).runs
  waits := settled_waits
  empty := Or.inr fun _ hc => hc.1
  closing := setState_watch (Watch.stable_settled false) (by simp) fun _ hw =>
    ⟨rfl, fun _ h => by simp [Watch.exchange] at h, hw.attempts⟩
  fatal := fatal_watch
  lastError _ _ hc := hc
  dataCallback _ _ hc := hc.calm ⟨fun _ => rfl, fun _ => rfl, rfl⟩
  weaken _ hc := hc

/-- What a `select` takes does not matter. -/
theorem wakeReady_watch {r : Answer} {c c' : Connection} {wake : Wake} {p : Watch → Prop} (hc : Watched p c)
    (h : wakeReady r c = some (wake, c')) : Watched p c' := by
  obtain ⟨m, chan, -, -, rfl⟩ | ⟨-, rfl | rfl⟩ := wakeReady_cases h
  · have htaken : Watched p { c with msgChan := chan } := hc
    exact htaken.calm ⟨fun _ => rfl, fun _ => rfl, rfl⟩
  · exact hc
  · exact hc

theorem connectedPass_watch :
    Triple disconnectContract (Watched fun w => w.Settled ∧ w.state = .connected) connectedPass
      fun _ => Watched Watch.Settled := by
  have hload : Triple disconnectContract (Watched fun w => w.Settled ∧ w.state = .connected) loadDisconnectReq
      fun requested c => if requested then Watched Watch.Settled c else Watched Watch.Connected c := by
    refine loadDisconnectReq_triple (Watch.stable_settled false).reading.runs (fun c hc _ => ?_) fun c hc hflag => ?_
    · exact hc.log (fun _ => rfl) (fun h => by cases h) fun w hw => ⟨rfl, hw.1.requested, hw.1.attempts⟩
    · have hhalted : c.watch.halted = false := by
        by_contra hnot
        have hrequested : c.disconnectReq = true :=
          hc.2.2.1.requested (by simpa using hnot) (Or.inl hc.2.2.2)
        rw [hflag] at hrequested
        cases hrequested
      have hfound : Watched (fun w => w.halted = false ∧ w.Settled ∧ w.state = .connected) c :=
        ⟨hc.1, hc.2.1, hhalted, hc.2.2⟩
      exact hfound.log (fun _ => rfl) (fun h => by cases h) fun w hw => ⟨rfl, hw.1, hw.2.2, hw.2.1.attempts⟩
  refine connectedPass_triple (R := Watched Watch.Selecting) (W := fun _ => Watched Watch.Settled) hload
    wakeRule_watch.closing Watch.stable_connected.runs (Or.inr fun _ hc => hc.1) selecting_waits ?_ ?_ ?_
    fun wake => wakeRule_watch.onWake fun m _ =>
      act_watch (Watch.stable_settled false) fun _ hc => hc.calm ⟨fun _ => rfl, fun _ => rfl, rfl⟩
  · rintro c ⟨hobeyed, hqueued, hw⟩
    refine ⟨hobeyed, hqueued, hw.state, rfl, fun hhalted => ?_, hw.attempts⟩
    exact absurd (hw.halted.symm.trans hhalted) Bool.false_ne_true
  · intro r c wake c' hc hready
    refine (wakeReady_watch hc hready).log (fun _ => rfl) (fun h => by cases h) fun w hw => ?_
    exact ⟨rfl, fun h => absurd (hw.halted.symm.trans h) Bool.false_ne_true, hw.attempts⟩
  · intro r c wake c' hc _ hready
    obtain ⟨hobeyed, hqueued, hw⟩ := wakeReady_watch hc hready
    have hdropped : Watched (fun w => (w.halted = true → w.requested = true) ∧ w.attempts.toNat ≤ 6)
        (disconnectWaiter.drop c') := ⟨hobeyed, hqueued, fun hhalted => (hw.notified hhalted).2, hw.attempts⟩
    exact hdropped.log (fun _ => rfl) (fun h => by cases h) fun w hw => ⟨rfl, fun hhalted _ => hw.1 hhalted, hw.2⟩

/-! ## Reconnecting -/

namespace Watch

/-- An attempt to reconnect is counted: it is not the zeroth. -/
structure Counted (attempt : UInt16) (w : Watch) : Prop where
  phase : w.phase = .waking
  halted : w.halted = false
  state : w.state ≠ .connected
  attempts : w.attempts = attempt
  positive : attempt ≠ 0

theorem stable_counted {attempt : UInt16} : Stable false (Counted attempt) := by
  refine ⟨fun w w' h hstep => ?_, fun _ w waiter h => ⟨h.phase, h.halted, h.state, h.attempts, h.positive⟩⟩
  cases hstep with
  | refl => exact h
  | request => exact ⟨h.phase, h.halted, h.state, h.attempts, h.positive⟩
  | connect destination => exact ⟨h.phase, rfl, h.state, h.attempts, h.positive⟩
  | disconnect hnoticed => exact absurd hnoticed (not_noticed (by simp [h.phase]))

/-- An attempt to reconnect is over, whether it has failed or not. -/
def Finished (w : Watch) : Prop := w.Engaged .waking ∨ w.Settled

theorem stable_finished : Stable false Finished := by
  have hengaged : Stable false (Engaged .waking) := stable_engaged (by simp)
  have hsettled := stable_settled false
  exact ⟨fun w w' h hstep => h.imp (hengaged.step w w' · hstep) (hsettled.step w w' · hstep),
    fun hrun w waiter h => h.imp (hengaged.waiter hrun w waiter) (hsettled.waiter hrun w waiter)⟩

end Watch

theorem attemptRule_watch : AttemptRule (engagedContract .waking) (Watched (Watch.Engaged .waking))
    (fun _ => Watched (Watch.Engaged .waking)) (fun _ => Watched (Watch.Engaged .waking))
    (Watched (Watch.Engaged .waking)) where
  runs := engaged_holds (by simp) false
  waits := engaged_holds (by simp) true
  moved _ hc := hc.1
  empty := Or.inr fun _ hc => hc.1
  stored := Or.inr fun _ hc => hc.1
  options _ _ hc := hc.calm ⟨fun _ => rfl, fun _ => rfl, rfl⟩
  start _ _ hc := hc.calm ⟨fun _ => rfl, fun _ => rfl, rfl⟩
  holds_read _ := engaged_holds (by simp) false
  read _ _ hc _ := hc
  present _ _ hc := hc.calm ⟨fun _ => rfl, fun _ => rfl, rfl⟩
  holds_takeOver _ := engaged_holds (by simp) false
  takeOver _ _ _ hc _ := hc
  install _ _ hc := hc
  fresh _ _ hc := hc
  holds_installed := engaged_holds (by simp) false
  stateReset _ hc := hc.calm ⟨fun _ => rfl, fun _ => rfl, rfl⟩

theorem reconnectFut_watch (stateless : Bool) : Triple (engagedContract .waking) (Watched (Watch.Engaged .waking))
    (reconnectFut stateless) fun _ => Watched Watch.Finished := by
  refine attemptRule_watch.reconnectFut (E := fun _ => Watched (Watch.Engaged .waking)) (engaged_holds (by simp) false)
    (fun _ hc => hc.calm ⟨fun _ => rfl, fun _ => rfl, rfl⟩) ?_
    (fun _ _ hc => hc.calm ⟨fun _ => rfl, fun _ => rfl, rfl⟩) (fun _ => engaged_holds (by simp) false)
    (fun _ _ hc _ _ => hc.mono fun _ => Or.inl) fun _ _ =>
      .await (engaged_holds (by simp) true) fun _ _ _ hc _ => hc.mono fun _ => Or.inl
  exact (setState_connected_watch (engaged_holds (by simp) false)
    (engagedContract_runs (Watch.stable_settled false))).post fun _ _ hc => hc.mono fun _ => Or.inr

theorem reconnectingPass_watch :
    Triple disconnectContract (Watched fun w => w.Settled ∧ w.state = .reconnecting) reconnectingPass
      fun _ => Watched Watch.Settled := by
  have hengaged : Watch.Stable false (Watch.Engaged .waking) := Watch.stable_engaged (by simp)
  have hload : Triple disconnectContract (Watched fun w => w.Settled ∧ w.state = .reconnecting) loadDisconnectReq
      fun requested c => if requested then Watched (fun _ => True) c else Watched (Watch.Engaged .waking) c := by
    refine loadDisconnectReq_triple (Watch.stable_settled false).reading.runs (fun c hc _ => ?_) fun c hc hflag => ?_
    · exact hc.log (fun _ => rfl) (fun h => by cases h) fun _ _ => trivial
    · have hhalted : c.watch.halted = false := by
        by_contra hnot
        have hrequested : c.disconnectReq = true :=
          hc.2.2.1.requested (by simpa using hnot) (Or.inr hc.2.2.2)
        rw [hflag] at hrequested
        cases hrequested
      have hfound : Watched (fun w => w.halted = false ∧ w.Settled ∧ w.state = .reconnecting) c :=
        ⟨hc.1, hc.2.1, hhalted, hc.2.2⟩
      exact hfound.log (fun _ => rfl) (fun h => by cases h) fun w hw =>
        ⟨rfl, hw.1, by simp [hw.2.2], hw.2.1.attempts⟩
  have hnext : Triple disconnectContract (Watched (Watch.Engaged .waking)) nextAttempt
      fun next => Watched (Watch.Counted next.1) := by
    refine .update hengaged.runs fun c hc => ⟨hc.1, hc.2.1, hc.2.2.phase, hc.2.2.halted, hc.2.2.state, rfl, ?_⟩
    intro hzero
    have hle : c.data.reconnectAttempt.toNat ≤ 6 := hc.2.2.attempts
    have hsum := congrArg UInt16.toNat hzero
    rw [UInt16.toNat_add] at hsum
    simp at hsum
    omega
  refine reconnectingPass_triple (N := fun attempt _ => Watched (Watch.Counted attempt))
    (R := Watched Watch.Finished) hload threadCancelConnection_watch hnext (fun _ _ _ hc => hc.mono fun _ _ => trivial)
    (fun _ c hc => absurd rfl hc.2.2.positive) (fun _ _ => Watch.stable_counted.runs) ?_ ?_
    (fun _ hc => hc.mono fun _ => Or.inr) ?_
  · exact fun attempt _ c hc => ⟨hc.1, hc.2.1, Watch.stable_counted.waiter rfl _ _ hc.2.2⟩
  · intro attempt stateless hlt
    refine (race_watch (Or.inl rfl) (fun _ => Watch.stable_finished) (reconnectFut_watch stateless)).pre fun c hc => ?_
    exact hc.mono fun w hw => ⟨hw.phase, hw.halted, hw.state, by rw [hw.attempts]; omega⟩
  · refine act_watch Watch.stable_finished fun c hc => hc.log (fun _ => rfl) (fun h => by cases h) fun w hw => ?_
    rcases hw with hw | hw
    · exact ⟨rfl, fun h => absurd (hw.halted.symm.trans h) Bool.false_ne_true, hw.attempts⟩
    · exact ⟨rfl, hw.requested, hw.attempts⟩

theorem workerThreadLoop_watch [Host] :
    Triple disconnectContract (Watched Watch.Settled) workerThreadLoop fun _ => Watched Watch.Settled := by
  have hsettled := Watch.stable_settled false
  refine (readState_watch hsettled).bind fun state => ?_
  split
  · exact disconnectedPass_watch
  iterate 3
    exact setState_watch hsettled.reading (by simp) fun w hw =>
      ⟨rfl, fun _ h => by simp [Watch.exchange] at h, hw.1.attempts⟩
  · exact connectedPass_watch
  · exact reconnectingPass_watch
  · exact (closingPass_triple hsettled.runs settled_waits (Or.inr fun _ hc => hc.1) (fun _ hc => hc) fatal_watch
      threadCancelConnection_watch).pre fun c hc => hc.mono fun _ hw => hw.1

/-! ## Runs -/

/-- Nobody's `disconnect` is lost: it returns when it is noticed, and a worker that waits in an attempt to connect takes
the notification if it has arrived. -/
def Heeded (c : ConnectionConfig) : ConnectionEvent → Prop
  | .other e => e.Heeded c.task.suspends c.shared
  | .own r => c.task.suspends = true → phase c.shared.history = .connecting →
      disconnectWaiter.notified c.shared = true → disconnectWaiter.interrupts r = true

/-- A connected worker that begins a pass and finds the request closes the connection. -/
theorem closes_next [Host] {c : Connection} (hstate : c.connState = .connected) (hrequest : c.disconnectReq = true)
    (r₁ r₂ r₃ r₄ : Answer) : ∃ c', Config.run workerThreadLoop userStep [.own r₁, .own r₂, .own r₃, .own r₄]
      (⟨c, .ret ()⟩ : ConnectionConfig) = some c' ∧ c'.shared.connState = .closing := by
  obtain ⟨state, connectChan, msgChan, hostname, path, settings, data, lastError, socket, wake, notify, req⟩ := c
  cases hstate
  cases hrequest
  exact ⟨_, rfl, rfl⟩

/-- `disconnect` is final in such a run: while the worker is to stop, it begins no attempt and does not become
connected, and a connected one finds the request before it waits again, or is woken by it, and leaves the state. -/
theorem disconnect_final [Host] {c : ConnectionConfig} (h : Running Heeded c) :
    obeyed c.shared.history = true ∧
      (halted c.shared.history = true → c.shared.connState = .connected →
        (c.task.suspends = true ∨ c.task = .ret () → c.shared.disconnectReq = true) ∧
        (c.task.suspends = true → phase c.shared.history = .waking → c.shared.disconnectNotify = some true) ∧
        (c.task = .ret () → ∀ r₁ r₂ r₃ r₄, ∃ c', Config.run workerThreadLoop userStep
          [.own r₁, .own r₂, .own r₃, .own r₄] c = some c' ∧ c'.shared.connState = .closing)) := by
  have hsafe : Safe disconnectContract (fun _ => Watched Watch.Settled) c.task c.shared := by
    refine Triple.invariant workerThreadLoop_watch (Watch.stable_settled false).runs.stable (fun c r hr => hr)
      (fun c e c' he hstep => Or.inl ⟨e, he, hstep⟩) ?_ h
    exact ⟨rfl, fun h => (by cases h), rfl, fun h => (by cases h), by simp [Connection.watch]⟩
  have hobeyed : obeyed c.shared.history = true :=
    hsafe.always (fun _ hc => hc.1) (fun _ _ hc => hc) fun _ _ hc => hc.1
  refine ⟨hobeyed, fun hhalted hconn => ?_⟩
  have hret : c.task = .ret () → c.shared.disconnectReq = true := fun hret => by
    rw [hret] at hsafe
    exact hsafe.of_ret.2.2.requested hhalted (Or.inl hconn)
  refine ⟨?_, fun hsuspends hphase => ?_, fun hpass r₁ r₂ r₃ r₄ => ?_⟩
  · rintro (hsuspends | hpass)
    · exact ((hsafe.of_suspends hsuspends).2 rfl hhalted).2 hconn
    · exact hret hpass
  · exact ((hsafe.of_suspends hsuspends).2 rfl hhalted).1 (by simp [Connection.watch, hphase])
  · have hrequest := hret hpass
    obtain ⟨s, t⟩ := c
    cases hpass
    exact closes_next hconn hrequest r₁ r₂ r₃ r₄

/-- Whether an event cannot lose a request. -/
def heeded (c : ConnectionConfig) : ConnectionEvent → Bool
  | .other (.finish i) => c.shared.calls[i]? ≠ some .disconnect ||
      c.shared.watch.queued.isEmpty &&
        (c.shared.watch.phase = .idle || c.task.suspends && c.shared.watch.waiter.isSome) &&
        c.shared.watch.requested
  | .other (.simulateConnectionDrop _) => false
  | .other _ => true
  | .own r => !(c.task.suspends && disconnectWaiter.notified c.shared) || disconnectWaiter.interrupts r

theorem Heeded.of_heeded {c : ConnectionConfig} {e : ConnectionEvent} (h : heeded c e = true) : Heeded c e := by
  cases e with
  | own r =>
    intro hsuspends _ hnotified
    simpa [heeded, hsuspends, hnotified] using h
  | other e =>
    cases e with
    | finish i =>
      intro hcall
      simp only [heeded, hcall, ne_eq, not_true_eq_false, decide_false, Bool.false_or, Bool.and_eq_true,
        List.isEmpty_iff, Bool.or_eq_true, decide_eq_true_eq] at h
      exact ⟨h.1.1, fun hphase => h.1.2.resolve_left hphase, fun _ => h.2⟩
    | simulateConnectionDrop b => cases h
    | enter call => trivial
    | settings settings => trivial

/-- A connected worker waits. -/
def selectEvents : List ConnectionEvent := List.replicate 5 (.own .ready) ++ [.own .pending]

theorem disconnect_final_connected : ∃ c, @runConnection plainHost (callEvents (.connect tcpUrl) ++ attemptEvents ++
    acceptEvents ++ connectedEvents ++ selectEvents ++ callEvents .disconnect) = some c ∧
    halted c.shared.history = true ∧ c.shared.connState = .connected ∧ c.shared.disconnectReq = true ∧
    c.shared.disconnectNotify = some true := by
  obtain ⟨c, hrun, hend⟩ := Option.map_eq_some_iff.mp (show (@runConnectionIf plainHost heeded
    (callEvents (.connect tcpUrl) ++ attemptEvents ++ acceptEvents ++ connectedEvents ++ selectEvents ++
      callEvents .disconnect)).map (fun c => (halted c.shared.history, c.shared.connState, c.task.suspends,
      phase c.shared.history)) = some (true, .connected, true, .waking) by decide +kernel)
  simp only [Prod.mk.injEq] at hend
  obtain ⟨hhalted, hconn, hsuspends, hphase⟩ := hend
  have hfinal := (@disconnect_final plainHost c (@Running.of_runIf plainHost _ _ _ _ (fun _ _ => .of_heeded) hrun)).2
    hhalted hconn
  exact ⟨c, @runConnection_of_runIf plainHost _ _ _ hrun, hhalted, hconn, hfinal.1 (Or.inl hsuspends),
    hfinal.2.1 hsuspends hphase⟩

/-- `disconnect` returns after the worker has taken the request and before it clears the flag: the worker goes on,
becomes connected and stays so. -/
theorem disconnect_lost : ∃ c, @runConnection plainHost (callEvents (.connect tcpUrl) ++ attemptEvents.take 3 ++
    callEvents .disconnect ++ attemptEvents.drop 3 ++ acceptEvents ++ connectedEvents ++ selectEvents) = some c ∧
    halted c.shared.history = true ∧ obeyed c.shared.history = false ∧ c.shared.connState = .connected ∧
    c.shared.disconnectReq = false ∧ c.shared.disconnectNotify = some false := by
  obtain ⟨c, hrun, hend⟩ := Option.map_eq_some_iff.mp (show (@runConnection plainHost (callEvents (.connect tcpUrl) ++
    attemptEvents.take 3 ++ callEvents .disconnect ++ attemptEvents.drop 3 ++ acceptEvents ++ connectedEvents ++
    selectEvents)).map (fun c => (halted c.shared.history, obeyed c.shared.history, c.shared.connState,
      c.shared.disconnectReq, c.shared.disconnectNotify)) = some (true, false, .connected, false, some false) by
      decide +kernel)
  simp only [Prod.mk.injEq] at hend
  exact ⟨c, hrun, hend⟩

end Qunet
