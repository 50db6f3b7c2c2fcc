import Mathlib.Logic.Relation

/-!
# Runs

* `runMachine step s is` : the outputs and the last state of a step function fed with the inputs `is`;
* `runSteps step s is` : the last state of the steps `is`, each of which has to be possible in its state;
* `EveryState`, `EveryStep` : a property of all states, or of all steps, of such a run;
* `Reachable init step s` : `s` is reached from an initial state of a transition relation;
* `runMachine_invariant`, `runSteps_invariant`, `Reachable.invariant` : what every step preserves holds after every run.
-/

namespace Qunet.Lib

variable {σ ι ω : Type}

/-! ## Step functions with inputs and outputs -/

/-- Feed the inputs to `step` one by one and collect the outputs. -/
def runMachine (step : σ → ι → ω × σ) : σ → List ι → List ω × σ
  | s, [] => ([], s)
  | s, i :: is => ((step s i).1 :: (runMachine step (step s i).2 is).1, (runMachine step (step s i).2 is).2)

theorem runMachine_cons (step : σ → ι → ω × σ) (s : σ) (i : ι) (is : List ι) :
    runMachine step s (i :: is) =
      ((step s i).1 :: (runMachine step (step s i).2 is).1, (runMachine step (step s i).2 is).2) := rfl

theorem runMachine_append (step : σ → ι → ω × σ) (s : σ) (is js : List ι) :
    runMachine step s (is ++ js) =
      ((runMachine step s is).1 ++ (runMachine step (runMachine step s is).2 js).1,
        (runMachine step (runMachine step s is).2 js).2) := by
  induction is generalizing s with
  | nil => rfl
  | cons i is ih => simp only [List.cons_append, runMachine_cons, ih]

/-- The last state of a run with one more input. -/
theorem runMachine_concat (step : σ → ι → ω × σ) (s : σ) (is : List ι) (i : ι) :
    runMachine step s (is ++ [i]) =
      ((runMachine step s is).1 ++ [(step (runMachine step s is).2 i).1], (step (runMachine step s is).2 i).2) := by
  rw [runMachine_append]
  rfl

/-- What every step preserves, for the inputs of the run, holds after the run. -/
theorem runMachine_invariant {step : σ → ι → ω × σ} {Inv : σ → Prop} {is : List ι}
    (hstep : ∀ s i, i ∈ is → Inv s → Inv (step s i).2) {s : σ} (hs : Inv s) : Inv (runMachine step s is).2 := by
  induction is generalizing s with
  | nil => exact hs
  | cons i is ih =>
    rw [runMachine_cons]
    exact ih (fun t j hj => hstep t j (List.mem_cons_of_mem i hj)) (hstep s i List.mem_cons_self hs)

/-! ## Steps that not every state allows -/

/-- Take the steps `is` one after another; `none` if one of them is not possible. -/
def runSteps (step : σ → ι → Option σ) : σ → List ι → Option σ
  | s, [] => some s
  | s, i :: is => (step s i).bind (runSteps step · is)

theorem runSteps_cons {step : σ → ι → Option σ} {s u : σ} {i : ι} {is : List ι}
    (h : runSteps step s (i :: is) = some u) : ∃ t, step s i = some t ∧ runSteps step t is = some u :=
  Option.bind_eq_some_iff.mp h

/-- What every step preserves holds after every run. -/
theorem runSteps_invariant {step : σ → ι → Option σ} {Inv : σ → Prop}
    (hstep : ∀ s i t, step s i = some t → Inv s → Inv t) {s u : σ} {is : List ι} (hs : Inv s)
    (h : runSteps step s is = some u) : Inv u := by
  induction is generalizing s with
  | nil =>
    cases h
    exact hs
  | cons i is ih =>
    obtain ⟨t, ht, hrun⟩ := runSteps_cons h
    exact ih (hstep s i t ht hs) hrun

/-- `Q` holds of every state of the run, up to the first step that is not possible. -/
def EveryState (step : σ → ι → Option σ) (Q : σ → Prop) : σ → List ι → Prop
  | s, [] => Q s
  | s, i :: is => Q s ∧ ∀ t, step s i = some t → EveryState step Q t is

/-- `P` holds of every step of the run. -/
def EveryStep (step : σ → ι → Option σ) (P : σ → ι → Prop) : σ → List ι → Prop
  | _, [] => True
  | s, i :: is => ∀ t, step s i = some t → P s i ∧ EveryStep step P t is

theorem EveryState.start {step : σ → ι → Option σ} {Q : σ → Prop} {s : σ} {is : List ι}
    (h : EveryState step Q s is) : Q s := by
  cases is with
  | nil => exact h
  | cons i is => exact h.1

theorem EveryState.last {step : σ → ι → Option σ} {Q : σ → Prop} {s u : σ} {is : List ι}
    (h : EveryState step Q s is) (hrun : runSteps step s is = some u) : Q u := by
  induction is generalizing s with
  | nil =>
    cases hrun
    exact h
  | cons i is ih =>
    obtain ⟨t, ht, hrest⟩ := runSteps_cons hrun
    exact ih (h.2 t ht) hrest

/-- Where a step keeps `Q` exactly if it satisfies `P`, the states of a run satisfy `Q` exactly if its steps satisfy
`P`. -/
theorem everyState_iff_everyStep {step : σ → ι → Option σ} {Inv Q : σ → Prop} {P : σ → ι → Prop}
    (hinv : ∀ s i t, step s i = some t → Inv s → Inv t)
    (hstep : ∀ s i t, step s i = some t → Inv s → Q s → (Q t ↔ P s i)) {s : σ} (hs : Inv s) (hQ : Q s) (is : List ι) :
    EveryState step Q s is ↔ EveryStep step P s is := by
  induction is generalizing s with
  | nil => exact iff_of_true hQ trivial
  | cons i is ih =>
    constructor
    · rintro ⟨-, h⟩ t ht
      have hQt := (h t ht).start
      exact ⟨(hstep s i t ht hs hQ).mp hQt, (ih (hinv s i t ht hs) hQt).mp (h t ht)⟩
    · intro h
      refine ⟨hQ, fun t ht => ?_⟩
      obtain ⟨hP, hrest⟩ := h t ht
      exact (ih (hinv s i t ht hs) ((hstep s i t ht hs hQ).mpr hP)).mpr hrest

/-- Under an invariant the two properties of steps are the same. -/
theorem everyStep_congr {step : σ → ι → Option σ} {Inv : σ → Prop} {P P' : σ → ι → Prop}
    (hinv : ∀ s i t, step s i = some t → Inv s → Inv t)
    (hP : ∀ s i t, step s i = some t → Inv s → (P s i ↔ P' s i)) {s : σ} (hs : Inv s) (is : List ι) :
    EveryStep step P s is ↔ EveryStep step P' s is := by
  induction is generalizing s with
  | nil => exact Iff.rfl
  | cons i is ih =>
    exact forall_congr' fun t => forall_congr' fun ht => and_congr (hP s i t ht hs) (ih (hinv s i t ht hs))

/-! ## Transition relations -/

section
universe u
variable {σ : Type u}

/-- `s` is reached from an initial state in finitely many steps. -/
def Reachable (init : σ → Prop) (step : σ → σ → Prop) (s : σ) : Prop :=
  ∃ s₀, init s₀ ∧ Relation.ReflTransGen step s₀ s

theorem Reachable.start {init : σ → Prop} {step : σ → σ → Prop} {s : σ} (h : init s) : Reachable init step s :=
  ⟨s, h, .refl⟩

theorem Reachable.next {init : σ → Prop} {step : σ → σ → Prop} {s t : σ} (h : Reachable init step s)
    (hst : step s t) : Reachable init step t := by
  obtain ⟨s₀, h₀, hr⟩ := h
  exact ⟨s₀, h₀, hr.tail hst⟩

/-- What holds initially and is preserved by every step holds of every reachable state. -/
theorem Reachable.invariant {init : σ → Prop} {step : σ → σ → Prop} {Inv : σ → Prop}
    (hinit : ∀ s, init s → Inv s) (hstep : ∀ s t, Inv s → step s t → Inv t) {s : σ}
    (h : Reachable init step s) : Inv s := by
  obtain ⟨s₀, h₀, hr⟩ := h
  induction hr with
  | refl => exact hinit s₀ h₀
  | tail _ hst ih => exact hstep _ _ ih hst

end

end Qunet.Lib
