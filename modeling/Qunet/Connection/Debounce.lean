import Qunet.Connection.PlainSteps
import Qunet.Connection.Reconnecting

/-!
# The wait before an attempt to reconnect (`attempt == 0`)

* `FirstAttempt`, `Debounced` : the first attempt of an outage, and the wait that it needs;
* `Undebounced` : at most six attempts are counted, and there was no wait;
* `attemptsContract` : others start the count anew at most;
* `reconnectingPass_undebounced` : an attempt is counted before it is compared, so that no wait is the first;
* **`debounced_iff`** : in every run, first attempts are not debounced.
-/

namespace Qunet
open Lib

/-- A call of `threadTryReconnect`, or the start of an outage. -/
def Event.attempted : Event → Bool
  | .tryReconnect _ _ => true
  | .exchange .connected .reconnecting _ => true
  | _ => false

/-- What has happened, newest first, from the start of an outage to its first attempt. -/
def FirstAttempt (history between : List Event) : Prop :=
  (∀ e ∈ between, e.attempted = false) ∧ ∃ newer older stateless socket previous,
    history = newer ++ .tryReconnect stateless socket :: between ++ .exchange .connected .reconnecting previous :: older

/-- The first attempt of every outage comes after the wait. -/
def Debounced (history : List Event) : Prop := ∀ between, FirstAttempt history between → .debounced ∈ between

structure Undebounced (c : Connection) : Prop where
  attempts : c.data.reconnectAttempt.toNat ≤ 6
  never : .debounced ∉ c.history

/-- The count is unknown while an attempt is counted, or the last one given up. -/
def attemptsContract : Contract Connection Answer Abort where
  rely _ := PlainStep
  admits _ _ _ := True
  inv suspends c := .debounced ∉ c.history ∧ (suspends = true → Undebounced c)
  aborts _ c := .debounced ∉ c.history

theorem Undebounced.plainStep {c c' : Connection} (h : Undebounced c) (hstep : PlainStep c c') : Undebounced c' := by
  refine ⟨?_, fun hmem => h.never ((hstep.mem rfl).mp hmem)⟩
  rcases hstep.attempt with hsame | hzero
  · rw [hsame]
    exact h.attempts
  · simp [hzero]

theorem undebounced_holds (suspends : Bool) : attemptsContract.Holds suspends Undebounced where
  inv _ hc := ⟨hc.never, fun _ => hc⟩
  stable _ _ hc hstep := hc.plainStep hstep

theorem attemptsContract_tolerates : attemptsContract.Tolerates disconnectWaiter where
  rely _ _ h := h
  inv _ h := ⟨h.1, fun hwait => (by cases hwait)⟩
  admits _ _ _ := trivial
  register _ := .quiet rfl (Or.inl rfl) rfl
  drop _ := .quiet rfl (Or.inl rfl) rfl

theorem Undebounced.connectStep {c c' : Connection} (h : Undebounced c) (hstep : ConnectStep c c') :
    Undebounced c' := by
  have hlog {e : Event} (he : e ≠ .debounced) (c : Connection) (hc : Undebounced c) : Undebounced (c.log e) :=
    ⟨hc.attempts, fun hmem => (List.mem_cons.mp hmem).elim (fun heq => he heq.symm) hc.never⟩
  cases hstep with
  | log e he =>
    refine hlog ?_ c h
    rintro rfl
    cases he
  | exchange state => exact hlog (by simp) _ ⟨h.attempts, h.never⟩
  | data data hdata =>
    refine ⟨?_, h.never⟩
    rcases hdata with hzero | hsame
    · simp [hzero]
    · show data.reconnectAttempt.toNat ≤ 6
      rw [hsame]
      exact h.attempts
  | _ => exact ⟨h.attempts, h.never⟩

theorem Confined.undebounced {α : Type} {t : Worker α} (h : Connects t) :
    Triple attemptsContract Undebounced t fun _ => Undebounced :=
  h.triple (fun _ _ hc hstep => hc.connectStep hstep) (fun _ _ _ hc => hc.never) (undebounced_holds false)
    (undebounced_holds true)

theorem undebouncedRule : WorkerRule fun t => Triple attemptsContract Undebounced t fun _ => Undebounced :=
  .of_triple (fun _ _ hc hstep => hc.plainStep hstep) (fun _ _ hc => hc.never) undebounced_holds
    attemptsContract_tolerates (fun _ hc => hc.2 rfl) fun address type reconnecting =>
      Confined.undebounced (makeOptions_prepares address type reconnecting).connects

/-! ## Reconnecting -/

/-- An attempt has been counted: it is not the zeroth. -/
structure AttemptCounted (attempt : UInt16) (c : Connection) : Prop where
  counted : 1 ≤ attempt.toNat
  attempts : c.data.reconnectAttempt.toNat ≤ attempt.toNat
  never : .debounced ∉ c.history

theorem attemptCounted_holds (attempt : UInt16) : attemptsContract.Holds false (AttemptCounted attempt) where
  inv _ hc := ⟨hc.never, fun hwait => (by cases hwait)⟩
  stable c c' hc hstep := by
    refine ⟨hc.counted, ?_, fun hmem => hc.never ((hstep.mem rfl).mp hmem)⟩
    rcases hstep.attempt with hsame | hzero
    · rw [hsame]
      exact hc.attempts
    · simp [hzero]

theorem nextAttempt_undebounced :
    Triple attemptsContract Undebounced nextAttempt fun next => AttemptCounted next.1 := by
  refine .update (undebounced_holds false) fun c hc => ?_
  have hnext : (c.data.reconnectAttempt + 1).toNat = c.data.reconnectAttempt.toNat + 1 := by
    have hle := hc.attempts
    rw [UInt16.toNat_add]
    exact Nat.mod_eq_of_lt (by simp; omega)
  exact ⟨by simp [hnext], le_refl _, hc.never⟩

/-- Giving up starts the count anew. -/
theorem threadCancelConnection_undebounced :
    Triple attemptsContract (fun c => .debounced ∉ c.history) threadCancelConnection fun _ => Undebounced := by
  have hnever : attemptsContract.Holds false fun c => .debounced ∉ c.history :=
    ⟨fun c hc => ⟨hc, fun hwait => (by cases hwait)⟩, fun c c' hc hstep hmem => hc ((hstep.mem rfl).mp hmem)⟩
  have hdata : Triple attemptsContract (fun c => .debounced ∉ c.history)
      (.act fun c : Connection => { c with data := {} }) fun _ => Undebounced :=
    .act hnever fun c hc => ⟨by simp, hc⟩
  have hrest : Triple attemptsContract Undebounced (do
      .act fun c => { c with disconnectReq := false }
      .act fun c => { c with socket := none } : Worker Unit) fun _ => Undebounced :=
    undebouncedRule.plain (.bind (plain_act (fun _ => rfl) (fun _ => Or.inl rfl) fun _ => rfl) fun _ =>
      plain_act (fun _ => rfl) (fun _ => Or.inl rfl) fun _ => rfl)
  exact (hdata.bind fun _ => hrest).bind fun _ => undebouncedRule.plain (setState_plain _)

theorem reconnectingPass_undebounced : Triple attemptsContract Undebounced reconnectingPass fun _ => Undebounced := by
  refine reconnectingPass_triple (G := fun c => .debounced ∉ c.history) (P := Undebounced) (R := Undebounced)
    (N := fun attempt _ => AttemptCounted attempt) ?_ threadCancelConnection_undebounced nextAttempt_undebounced
    (fun _ _ _ hc => hc.never) (fun _ _ hc => absurd hc.counted (by simp))
    (fun attempt _ => attemptCounted_holds attempt)
    (fun _ _ _ hc => ⟨hc.counted, hc.attempts, hc.never⟩) ?_ (fun _ hc => hc) (undebouncedRule.plain (plain_note rfl))
  · refine (undebouncedRule.plain loadDisconnectReq_plain).post fun requested c hc => ?_
    cases requested with
    | true => exact hc.never
    | false => exact hc
  · intro attempt stateless hlt
    have hrace : Triple attemptsContract Undebounced ((reconnectFut stateless).race disconnectWaiter true)
        fun _ => Undebounced := undebouncedRule.race (undebouncedRule.reconnectFut stateless)
    refine hrace.mono (fun c hc => ?_) fun r c hc => ?_
    · have hle := hc.attempts
      exact ⟨by omega, hc.never⟩
    · cases r with
      | none => exact hc.never
      | some => exact hc

/-! ## Runs -/

theorem never_debounced [Host] {c : ConnectionConfig} (h : Running (fun _ _ => True) c) :
    .debounced ∉ c.shared.history := by
  have hloop : Triple attemptsContract Undebounced workerThreadLoop fun _ => Undebounced :=
    undebouncedRule.workerThreadLoop (fun url => Confined.undebounced (threadConnect_connects url))
      reconnectingPass_undebounced
  have hsafe := hloop.invariant (fun _ _ hc hstep => hc.plainStep hstep) (fun _ _ _ => trivial)
    (fun _ _ _ _ hstep => userStep_plain hstep) ⟨by simp, by simp⟩ h
  exact hsafe.always (fun _ hc => hc.never) (fun _ _ hc => hc) fun _ _ hc => hc.1

theorem FirstAttempt.subset {history between : List Event} (h : FirstAttempt history between) : between ⊆ history := by
  obtain ⟨-, newer, older, stateless, socket, previous, rfl⟩ := h
  intro e he
  simp [he]

/-- First attempts are debounced only where there are none. -/
theorem debounced_iff [Host] {c : ConnectionConfig} (h : Running (fun _ _ => True) c) :
    Debounced c.shared.history ↔ ∀ between, ¬ FirstAttempt c.shared.history between := by
  constructor
  · exact fun hdebounced between hfirst => never_debounced h (hfirst.subset (hdebounced between hfirst))
  · exact fun hnone between hfirst => absurd hfirst (hnone between)

/-! ### An outage -/

/-- A reconnecting worker begins a pass, and in it an attempt. -/
def attemptedEvents : List ConnectionEvent := List.replicate 6 (.own .ready)

/-- The history ends with an attempt right after the worker has begun to reconnect. -/
def attemptedAtOnce : List Event → Bool
  | .tryReconnect _ _ :: .loaded _ :: .callback _ :: .exchange .connected .reconnecting _ :: _ => true
  | _ => false

theorem attemptedAtOnce.firstAttempt {history : List Event} (h : attemptedAtOnce history = true) :
    ∃ between, FirstAttempt history between ∧ .debounced ∉ between := by
  unfold attemptedAtOnce at h
  split at h
  · next stateless socket requested state previous older =>
    exact ⟨[.loaded requested, .callback state], ⟨by simp [Event.attempted], [], older, stateless, socket, previous, rfl⟩,
      by simp⟩
  · cases h

theorem lost_attempted : ∃ c, @Running plainHost (fun _ _ => True) c ∧
    ∃ between, FirstAttempt c.shared.history between ∧ .debounced ∉ between := by
  obtain ⟨c, hrun, hattempted⟩ := Option.map_eq_some_iff.mp (show (@runConnection plainHost
    (callEvents (.connect tcpUrl) ++ attemptEvents ++ acceptEvents ++ connectedEvents ++ lostEvents ++
      attemptedEvents)).map (fun c => attemptedAtOnce c.shared.history) = some true by decide +kernel)
  exact ⟨c, @Running.of_run plainHost _ _ c (fun _ _ _ => trivial) hrun, attemptedAtOnce.firstAttempt hattempted⟩

theorem debounced_iff_lost : ∃ c, @Running plainHost (fun _ _ => True) c ∧ ¬ Debounced c.shared.history := by
  obtain ⟨c, hruns, between, hfirst, -⟩ := lost_attempted
  exact ⟨c, hruns, fun hdebounced => (@debounced_iff plainHost c hruns).mp hdebounced between hfirst⟩

/-- The worker loses its connection and tries to reconnect at once. -/
theorem attempt_undebounced :
    ¬ ∀ (host : Host) (c : ConnectionConfig), @Running host (fun _ _ => True) c → Debounced c.shared.history := by
  obtain ⟨c, hruns, between, hfirst, hnever⟩ := lost_attempted
  exact fun h => hnever (h plainHost c hruns between hfirst)

end Qunet
