import Qunet.Connection.PlainSteps

/-!
# The history only grows

* `Grows` : everything that has happened stays in the history;
* `workerThreadLoop_appends`, `userStep_grows` : so it is in every step of the worker and of a public function;
* **`run_grows`** : the events between two configurations of a run.
-/

namespace Qunet
open Lib

def Grows (c c' : Connection) : Prop := c.history <:+ c'.history

theorem Grows.refl (c : Connection) : Grows c c := List.suffix_rfl

theorem Grows.trans {c₁ c₂ c₃ : Connection} (h : Grows c₁ c₂) (h' : Grows c₂ c₃) : Grows c₁ c₃ :=
  List.IsSuffix.trans h h'

theorem grows_log (e : Event) (c : Connection) : Grows c (c.log e) := List.suffix_cons e c.history

theorem grows_exchange (state : ConnectionState) (c : Connection) : Grows c (c.exchange state) :=
  List.suffix_cons _ c.history

/-- A task that only appends to the history. -/
abbrev Appends {α : Type} (t : Worker α) : Prop := Confined Grows (fun _ => True) t

theorem PlainStep.grows {c c' : Connection} (h : PlainStep c c') : Grows c c' := by
  obtain ⟨es, hes, -⟩ := h.history
  exact ⟨es, hes.symm⟩

/-- A task of the steps of an attempt. -/
theorem Confined.appends {α : Type} {t : Worker α} (h : Connects t) : Appends t := by
  apply h.mono
  · intro c c' hstep
    cases hstep with
    | log e he => exact grows_log e c
    | exchange state hstate => exact grows_exchange state c
    | _ => exact .refl c
  · exact fun _ _ => trivial

theorem workerRule_appends : WorkerRule fun t => Appends t where
  plain h := h.mono (fun _ _ hstep => hstep.grows) fun _ _ => trivial
  bind h hg := Confined.bind h hg
  race h := h.race (fun c => .refl c) fun c => .refl c
  options address type reconnecting := Confined.appends (makeOptions_prepares address type reconnecting).connects

/-! ## Runs -/

theorem debounce_appends : Appends debounce :=
  .bind (workerRule_appends.race (Confined.await .refl)) fun _ => .act fun c => grows_log .debounced c

theorem workerThreadLoop_appends [Host] : Appends workerThreadLoop :=
  workerRule_appends.workerThreadLoop (fun url => Confined.appends (threadConnect_connects url))
    (workerRule_appends.reconnectingPass (.update fun c => .refl c) debounce_appends)

theorem userStep_grows {e : UserEvent} {c c' : Connection} (h : userStep e c = some c') : Grows c c' :=
  (userStep_plain h).grows

/-- What is left of the worker's pass only appends to the history. -/
def AppendsOn (c : ConnectionConfig) : Prop := Appends c.task

theorem step_grows [Host] {e : ConnectionEvent} {c c' : ConnectionConfig}
    (h : Config.step workerThreadLoop userStep e c = some c') (hc : AppendsOn c) :
    Grows c.shared c'.shared ∧ AppendsOn c' := by
  obtain ⟨s, t⟩ := c
  cases e with
  | other e =>
    obtain ⟨s', hs', rfl⟩ := Option.map_eq_some_iff.mp h
    exact ⟨userStep_grows hs', hc⟩
  | own r =>
    cases t with
    | ret a =>
      cases h
      exact ⟨.refl s, workerThreadLoop_appends⟩
    | abort why => cases h
    | step suspends f k =>
      obtain ⟨p, hp, rfl⟩ := Option.map_eq_some_iff.mp h
      exact hc r s p.1 p.2 hp

theorem run_grows [Host] {es : List ConnectionEvent} {c c' : ConnectionConfig}
    (h : Config.run workerThreadLoop userStep es c = some c') (hc : AppendsOn c) : Grows c.shared c'.shared := by
  induction es generalizing c with
  | nil =>
    cases h
    exact .refl _
  | cons e es ih =>
    obtain ⟨c₁, hstep, hrun⟩ := Option.bind_eq_some_iff.mp h
    obtain ⟨hgrows, hc₁⟩ := step_grows hstep hc
    exact hgrows.trans (ih hrun hc₁)

end Qunet
