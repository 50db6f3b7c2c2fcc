import Qunet.Lib.Machine

/-!
# Tasks

A task runs step by step over a state that it shares with others. Each step takes an answer from outside and may be
refused; others act between the steps. A step that suspends is one at which the task waits.

* `Task` : the monad of tasks; `act`, `read`, `update`, `ask`, `await`;
* `race` : a task together with a notification, which drops the task;
* `Config`, `Config.step`, `Config.run` : a task that is started again whenever it has returned, among others;
* `Contract`, `Safe`, `Triple` : what a task relies on and what it keeps; one rule for each way to build a task;
* `Confined` : a task whose steps all belong to one relation keeps what that relation preserves;
* `Ends` : how a task may return and abort, whatever it reads and is told; `Task.exec`, one execution;
* `RaceRule`, `Contract.Tolerates` : when a task may be raced;
* **`Triple.invariant`** : what a task that keeps its contract guarantees of every run.
-/

namespace Qunet.Lib
open Relation

/-- A task over the state `σ`, with answers `ρ`, that returns an `α` unless it aborts with a `φ`. -/
inductive Task (σ ρ φ α : Type) : Type 1 where
  | ret (a : α)
  | abort (why : φ)
  | step (suspends : Bool) {β : Type} (f : ρ → σ → Option (β × σ)) (k : β → Task σ ρ φ α)

/-- A notification that a task waits for besides its own steps: how it is registered and dropped, and which answers say
that the task is not ready yet, or that the notification is taken. -/
structure Waiter (σ ρ : Type) where
  register : σ → σ
  notified : σ → Bool
  drop : σ → σ
  pending : ρ → Bool
  interrupts : ρ → Bool

variable {σ ρ φ α β γ ε : Type}

namespace Task

protected def bind : Task σ ρ φ α → (α → Task σ ρ φ β) → Task σ ρ φ β
  | ret a, g => g a
  | abort why, _ => abort why
  | step suspends f k, g => step suspends f fun b => (k b).bind g

instance : Monad (Task σ ρ φ) where
  pure := ret
  bind := Task.bind

theorem bind_eq_self (t : Task σ ρ φ α) : t.bind ret = t := by
  induction t with
  | ret a => rfl
  | abort why => rfl
  | step suspends f k ih => exact congrArg (step suspends f) (funext ih)

theorem bind_bind (t : Task σ ρ φ α) (g : α → Task σ ρ φ β) (h : β → Task σ ρ φ γ) :
    (t.bind g).bind h = t.bind fun a => (g a).bind h := by
  induction t with
  | ret a => rfl
  | abort why => rfl
  | step suspends f k ih => exact congrArg (step suspends f) (funext ih)

instance : LawfulMonad (Task σ ρ φ) :=
  .mk' (Task σ ρ φ) (fun t => bind_eq_self t) (fun _ _ => rfl) bind_bind

/-- Change the state. -/
def act (f : σ → σ) : Task σ ρ φ Unit := step false (fun _ s => some ((), f s)) ret

def read (g : σ → β) : Task σ ρ φ β := step false (fun _ s => some (g s, s)) ret

/-- Read and change the state in one step. -/
def update (f : σ → β × σ) : Task σ ρ φ β := step false (fun _ s => some (f s)) ret

/-- Take what the answer says. -/
def ask (g : ρ → Option β) : Task σ ρ φ β := step false (fun r s => (g r).map (·, s)) ret

/-- Wait for an answer. -/
def await (g : ρ → Option β) : Task σ ρ φ β := step true (fun r s => (g r).map (·, s)) ret

/-- Run the task only if `p` holds. -/
def whenever (p : Prop) [Decidable p] (t : Task σ ρ φ Unit) : Task σ ρ φ Unit := if p then t else pure ()

/-- Abort unless `p` holds. -/
def assert (p : Prop) [Decidable p] (why : φ) : Task σ ρ φ Unit := if p then pure () else abort why

/-- Whether the task waits. -/
def suspends : Task σ ρ φ α → Bool
  | step suspends _ _ => suspends
  | _ => false

def returned : Task σ ρ φ α → Bool
  | ret _ => true
  | _ => false

def aborted : Task σ ρ φ α → Option φ
  | abort why => some why
  | _ => none

theorem eq_abort {t : Task σ ρ φ α} {why : φ} (h : t.aborted = some why) : t = .abort why := by
  cases t with
  | ret a => cases h
  | abort why' =>
    cases h
    rfl
  | step suspends f k => cases h

theorem eq_ret {t : Task σ ρ φ Unit} (h : t.returned = true) : t = .ret () := by
  cases t with
  | ret a => rfl
  | abort why => cases h
  | step suspends f k => cases h

/-- The task until it returns or, while it waits, the notification arrives. The waiter is registered when the task waits
for the first time. With `first`, a notification that has arrived comes before the task. -/
def race (w : Waiter σ ρ) (first : Bool) : Task σ ρ φ α → Task σ ρ φ (Option α)
  | ret a => step false (fun _ s => some ((), w.drop s)) fun _ => ret (some a)
  | abort why => abort why
  | step false f k => step false f fun b => race w first (k b)
  | step true f k =>
    step false (fun r s => if w.pending r then some (none, w.register s) else (f r s).map fun p => (some p.1, p.2)) fun
      | some b => race w first (k b)
      | none =>
        step true (fun r s =>
          if w.notified s && (first || w.interrupts r) then some (none, w.drop s)
          else (f r s).map fun p => (some p.1, p.2)) fun
        | some b => race w first (k b)
        | none => ret none

/-- Run to the end with one answer and nobody in between. -/
def complete (r : ρ) : Task σ ρ φ α → σ → Option (α × σ)
  | ret a, s => some (a, s)
  | abort _, _ => none
  | step _ f k, s => (f r s).bind fun p => (k p.1).complete r p.2

end Task

/-! ## Runs -/

/-- The shared state and what is left of the task. -/
structure Config (σ ρ φ : Type) where
  shared : σ
  task : Task σ ρ φ Unit

/-- A step of the task, or of the others. -/
inductive TaskEvent (ρ ε : Type) where
  | own (answer : ρ)
  | other (event : ε)

/-- One step: a task that has returned is started again. -/
def Config.step (body : Task σ ρ φ Unit) (user : ε → σ → Option σ) :
    TaskEvent ρ ε → Config σ ρ φ → Option (Config σ ρ φ)
  | .own _, ⟨s, .ret ()⟩ => some ⟨s, body⟩
  | .own _, ⟨_, .abort _⟩ => none
  | .own r, ⟨s, .step _ f k⟩ => (f r s).map fun p => ⟨p.2, k p.1⟩
  | .other e, ⟨s, t⟩ => (user e s).map (⟨·, t⟩)

def Config.run (body : Task σ ρ φ Unit) (user : ε → σ → Option σ) :
    List (TaskEvent ρ ε) → Config σ ρ φ → Option (Config σ ρ φ)
  | [], c => some c
  | e :: es, c => (Config.step body user e c).bind (Config.run body user es)

theorem Config.run_append {body : Task σ ρ φ Unit} {user : ε → σ → Option σ} {es es' : List (TaskEvent ρ ε)}
    {c c' : Config σ ρ φ} (h : Config.run body user es c = some c') :
    Config.run body user (es ++ es') c = Config.run body user es' c' := by
  induction es generalizing c with
  | nil =>
    cases h
    rfl
  | cons e es ih =>
    obtain ⟨c₁, hstep, hrest⟩ := Option.bind_eq_some_iff.mp h
    show (Config.step body user e c).bind (Config.run body user (es ++ es')) = _
    rw [hstep, Option.bind_some, ih hrest]

/-- The configurations of the runs in which every event meets `cond` when it happens. -/
def Config.Runs (body : Task σ ρ φ Unit) (user : ε → σ → Option σ) (cond : Config σ ρ φ → TaskEvent ρ ε → Prop)
    (s₀ : σ) : Config σ ρ φ → Prop :=
  Reachable (· = ⟨s₀, .ret ()⟩) fun c c' => ∃ e, cond c e ∧ Config.step body user e c = some c'

/-- A run whose events meet the condition wherever they happen. -/
theorem Config.Runs.run {body : Task σ ρ φ Unit} {user : ε → σ → Option σ} {s₀ : σ} {es : List (TaskEvent ρ ε)}
    {cond : Config σ ρ φ → TaskEvent ρ ε → Prop} {c c' : Config σ ρ φ} (h : Config.Runs body user cond s₀ c)
    (hcond : ∀ e ∈ es, ∀ c, cond c e) (hrun : Config.run body user es c = some c') :
    Config.Runs body user cond s₀ c' := by
  induction es generalizing c with
  | nil =>
    cases hrun
    exact h
  | cons e es ih =>
    obtain ⟨c₁, hstep, hrest⟩ := Option.bind_eq_some_iff.mp hrun
    exact ih (Reachable.next h ⟨e, hcond e List.mem_cons_self c, hstep⟩)
      (fun e he => hcond e (List.mem_cons_of_mem _ he)) hrest

/-- A run, if every event also passes a test when it happens. -/
def Config.runIf (body : Task σ ρ φ Unit) (user : ε → σ → Option σ) (test : Config σ ρ φ → TaskEvent ρ ε → Bool) :
    List (TaskEvent ρ ε) → Config σ ρ φ → Option (Config σ ρ φ)
  | [], c => some c
  | e :: es, c => if test c e then (Config.step body user e c).bind (Config.runIf body user test es) else none

theorem Config.Runs.runIf {body : Task σ ρ φ Unit} {user : ε → σ → Option σ} {s₀ : σ} {es : List (TaskEvent ρ ε)}
    {cond : Config σ ρ φ → TaskEvent ρ ε → Prop} {test : Config σ ρ φ → TaskEvent ρ ε → Bool} {c c' : Config σ ρ φ}
    (h : Config.Runs body user cond s₀ c) (htest : ∀ c e, test c e = true → cond c e)
    (hrun : Config.runIf body user test es c = some c') : Config.Runs body user cond s₀ c' := by
  induction es generalizing c with
  | nil =>
    cases hrun
    exact h
  | cons e es ih =>
    unfold Config.runIf at hrun
    split at hrun
    · next hpass =>
      obtain ⟨c₁, hstep, hrest⟩ := Option.bind_eq_some_iff.mp hrun
      exact ih (Reachable.next h ⟨e, htest c e hpass, hstep⟩) hrest
    · cases hrun

theorem Config.run_of_runIf {body : Task σ ρ φ Unit} {user : ε → σ → Option σ} {es : List (TaskEvent ρ ε)}
    {test : Config σ ρ φ → TaskEvent ρ ε → Bool} {c c' : Config σ ρ φ}
    (h : Config.runIf body user test es c = some c') : Config.run body user es c = some c' := by
  induction es generalizing c with
  | nil => exact h
  | cons e es ih =>
    unfold Config.runIf at h
    split at h
    · obtain ⟨c₁, hstep, hrest⟩ := Option.bind_eq_some_iff.mp h
      exact Option.bind_eq_some_iff.mpr ⟨c₁, hstep, ih hrest⟩
    · cases h

/-! ## Contracts -/

/-- What a task relies on, and what it keeps. The flags say whether the task waits.
* `rely` : the steps of the others;
* `admits` : the answers that it gets;
* `inv` : what holds before each of its steps;
* `aborts` : how it may abort. -/
structure Contract (σ ρ φ : Type) where
  rely : Bool → σ → σ → Prop
  admits : Bool → σ → ρ → Prop
  inv : Bool → σ → Prop
  aborts : φ → σ → Prop

namespace Contract

/-- `P` implies the invariant and is kept by the others. -/
structure Holds (C : Contract σ ρ φ) (suspends : Bool) (P : σ → Prop) : Prop where
  inv : ∀ s, P s → C.inv suspends s
  stable : ∀ s s', P s → C.rely suspends s s' → P s'

theorem Holds.star {C : Contract σ ρ φ} {suspends : Bool} {P : σ → Prop} (h : C.Holds suspends P) {s s' : σ} (hP : P s)
    (hrely : ReflTransGen (C.rely suspends) s s') : P s' := by
  induction hrely with
  | refl => exact hP
  | tail _ hstep ih => exact h.stable _ _ ih hstep

/-- The contract of a task that may be dropped while it waits, provided that `I` holds then. -/
def whileWaiting (C : Contract σ ρ φ) (I : σ → Prop) : Contract σ ρ φ :=
  { C with inv := fun suspends s => C.inv suspends s ∧ (suspends = true → I s) }

theorem Holds.run {C : Contract σ ρ φ} {I P : σ → Prop} (h : C.Holds false P) : (C.whileWaiting I).Holds false P :=
  ⟨fun s hs => ⟨h.inv s hs, fun hwait => (by cases hwait)⟩, h.stable⟩

theorem Holds.wait {C : Contract σ ρ φ} {suspends : Bool} {I P : σ → Prop} (h : C.Holds suspends P)
    (hI : ∀ s, P s → I s) : (C.whileWaiting I).Holds suspends P :=
  ⟨fun s hs => ⟨h.inv s hs, fun _ => hI s hs⟩, h.stable⟩

end Contract

/-- From `s` on, the task keeps the contract and returns only with `Q`. -/
def Safe (C : Contract σ ρ φ) (Q : α → σ → Prop) : Task σ ρ φ α → σ → Prop
  | .ret a, s => Q a s
  | .abort why, s => ∀ s', ReflTransGen (C.rely false) s s' → C.aborts why s'
  | .step suspends f k, s => ∀ s', ReflTransGen (C.rely suspends) s s' → C.inv suspends s' ∧
      ∀ r b t, C.admits suspends s' r → f r s' = some (b, t) → Safe C Q (k b) t

def Triple (C : Contract σ ρ φ) (P : σ → Prop) (t : Task σ ρ φ α) (Q : α → σ → Prop) : Prop := ∀ s, P s → Safe C Q t s

section
variable {C C₀ : Contract σ ρ φ} {P P' R : σ → Prop} {Q Q' : α → σ → Prop} {t : Task σ ρ φ α}

theorem Safe.mono (hQ : ∀ a s, Q a s → Q' a s) {s : σ} (h : Safe C Q t s) : Safe C Q' t s := by
  induction t generalizing s with
  | ret a => exact hQ a s h
  | abort why => exact h
  | step suspends f k ih =>
    intro s' hrely
    obtain ⟨hinv, hnext⟩ := h s' hrely
    exact ⟨hinv, fun r b t hr hf => ih b (hnext r b t hr hf)⟩

theorem Safe.bind {g : α → Task σ ρ φ β} {Q : β → σ → Prop} {s : σ} (h : Safe C (fun a s => Safe C Q (g a) s) t s) :
    Safe C Q (t >>= g) s := by
  induction t generalizing s with
  | ret a => exact h
  | abort why => exact h
  | step suspends f k ih =>
    intro s' hrely
    obtain ⟨hinv, hnext⟩ := h s' hrely
    exact ⟨hinv, fun r b t hr hf => ih b (hnext r b t hr hf)⟩

theorem Safe.and {s : σ} (h : Safe C Q t s) (h' : Safe C Q' t s) : Safe C (fun a s => Q a s ∧ Q' a s) t s := by
  induction t generalizing s with
  | ret a => exact ⟨h, h'⟩
  | abort why => exact h
  | step suspends f k ih =>
    intro s' hrely
    obtain ⟨hinv, hnext⟩ := h s' hrely
    exact ⟨hinv, fun r b t hr hf => ih b (hnext r b t hr hf) ((h' s' hrely).2 r b t hr hf)⟩

/-- A safe task stays safe while the others act. -/
theorem Safe.interfere (hQ : ∀ a s s', Q a s → C.rely false s s' → Q a s') {s s' : σ} (h : Safe C Q t s)
    (hrely : C.rely t.suspends s s') : Safe C Q t s' := by
  cases t with
  | ret a => exact hQ a s s' h hrely
  | abort why => exact fun s'' hstar => h s'' (.head hrely hstar)
  | step suspends f k => exact fun s'' hstar => h s'' (.head hrely hstar)

/-! ## Rules -/

theorem Triple.mono (h : Triple C P t Q) (hP : ∀ s, P' s → P s) (hQ : ∀ a s, Q a s → Q' a s) : Triple C P' t Q' :=
  fun s hs => (h s (hP s hs)).mono hQ

theorem Triple.pre (h : Triple C P t Q) (hP : ∀ s, P' s → P s) : Triple C P' t Q := h.mono hP fun _ _ hQ => hQ

theorem Triple.post (h : Triple C P t Q) (hQ : ∀ a s, Q a s → Q' a s) : Triple C P t Q' := h.mono (fun _ hP => hP) hQ

theorem Triple.and (h : Triple C P t Q) (h' : Triple C P t Q') : Triple C P t fun a s => Q a s ∧ Q' a s :=
  fun s hs => (h s hs).and (h' s hs)

theorem Triple.bind {Q : α → σ → Prop} {g : α → Task σ ρ φ β} {R : β → σ → Prop} (h : Triple C P t Q)
    (hg : ∀ a, Triple C (Q a) (g a) R) : Triple C P (t >>= g) R :=
  fun s hs => Safe.bind ((h s hs).mono fun a s' hQ => hg a s' hQ)

theorem Triple.pure {a : α} (h : ∀ s, P s → Q a s) : Triple C P (pure a) Q := h

theorem Triple.abort {why : φ} (h : C.Holds false P) (habort : ∀ s, P s → C.aborts why s) :
    Triple C P (Task.abort why : Task σ ρ φ α) Q :=
  fun _ hs _ hrely => habort _ (h.star hs hrely)

theorem Triple.whenever {p : Prop} [Decidable p] {t : Task σ ρ φ Unit} {Q : Unit → σ → Prop} (h : p → Triple C P t Q)
    (hskip : ¬ p → ∀ s, P s → Q () s) : Triple C P (Task.whenever p t) Q := by
  unfold Task.whenever
  split
  · next hp => exact h hp
  · next hp => exact .pure (hskip hp)

theorem Triple.assert {p : Prop} [Decidable p] {why : φ} {Q : Unit → σ → Prop} (h : C.Holds false P)
    (hpass : p → ∀ s, P s → Q () s) (hfail : ¬ p → ∀ s, P s → C.aborts why s) : Triple C P (Task.assert p why) Q := by
  unfold Task.assert
  split
  · next hp => exact .pure (hpass hp)
  · next hp => exact .abort h (hfail hp)

/-- One step: `P` holds until it is taken. -/
theorem Triple.step {suspends : Bool} {f : ρ → σ → Option (β × σ)} {k : β → Task σ ρ φ α} {R : β → σ → Prop}
    (h : C.Holds suspends P) (hf : ∀ r s b s', P s → C.admits suspends s r → f r s = some (b, s') → R b s')
    (hk : ∀ b, Triple C (R b) (k b) Q) : Triple C P (.step suspends f k) Q := by
  intro s hs s' hrely
  have hP := h.star hs hrely
  exact ⟨h.inv _ hP, fun r b t hr hft => hk b t (hf r s' b t hP hr hft)⟩

theorem Triple.act {f : σ → σ} {Q : Unit → σ → Prop} (h : C.Holds false P) (hf : ∀ s, P s → Q () (f s)) :
    Triple C P (Task.act f) Q :=
  .step h (R := fun _ => Q ()) (fun _ s _ s' hP _ hfs => by cases hfs; exact hf s hP) fun _ _ hs => hs

theorem Triple.read {g : σ → β} {Q : β → σ → Prop} (h : C.Holds false P) (hg : ∀ s, P s → Q (g s) s) :
    Triple C P (Task.read g) Q :=
  .step h (R := Q) (fun _ s _ s' hP _ hfs => by cases hfs; exact hg s hP) fun _ _ hs => hs

theorem Triple.update {f : σ → β × σ} {Q : β → σ → Prop} (h : C.Holds false P)
    (hf : ∀ s, P s → Q (f s).1 (f s).2) : Triple C P (Task.update f) Q :=
  .step h (R := Q) (fun _ s b s' hP _ hfs => by
    have hp := hf s hP
    rw [Option.some.inj hfs] at hp
    exact hp) fun _ _ hs => hs

theorem Triple.ask {g : ρ → Option β} {Q : β → σ → Prop} (h : C.Holds false P)
    (hg : ∀ r b s, P s → g r = some b → Q b s) : Triple C P (Task.ask g) Q :=
  .step h (R := Q) (fun r s b s' hP _ hfs => by
    obtain ⟨b', hb, hp⟩ := Option.map_eq_some_iff.mp hfs
    cases hp
    exact hg r b s hP hb) fun _ _ hs => hs

theorem Triple.await {g : ρ → Option β} {Q : β → σ → Prop} (h : C.Holds true P)
    (hg : ∀ r b s, P s → g r = some b → Q b s) : Triple C P (Task.await g) Q :=
  .step h (R := Q) (fun r s b s' hP _ hfs => by
    obtain ⟨b', hb, hp⟩ := Option.map_eq_some_iff.mp hfs
    cases hp
    exact hg r b s hP hb) fun _ _ hs => hs

end

/-! ## Confined tasks -/

/-- Every step belongs to `A`, and every abort to `B`. -/
def Confined (A : σ → σ → Prop) (B : φ → Prop) : Task σ ρ φ α → Prop
  | .ret _ => True
  | .abort why => B why
  | .step _ f k => ∀ r s b s', f r s = some (b, s') → A s s' ∧ Confined A B (k b)

namespace Confined
variable {A A' : σ → σ → Prop} {B B' : φ → Prop} {t : Task σ ρ φ α} {g : α → Task σ ρ φ β}

theorem mono (h : Confined A B t) (hA : ∀ s s', A s s' → A' s s') (hB : ∀ why, B why → B' why) : Confined A' B' t := by
  induction t with
  | ret a => trivial
  | abort why => exact hB why h
  | step suspends f k ih =>
    intro r s b s' hf
    obtain ⟨ha, hk⟩ := h r s b s' hf
    exact ⟨hA s s' ha, ih b hk⟩

theorem bind (h : Confined A B t) (hg : ∀ a, Confined A B (g a)) : Confined A B (t >>= g) := by
  induction t with
  | ret a => exact hg a
  | abort why => exact h
  | step suspends f k ih =>
    intro r s b s' hf
    obtain ⟨ha, hk⟩ := h r s b s' hf
    exact ⟨ha, ih b hk⟩

theorem pure {a : α} : Confined A B (pure a : Task σ ρ φ α) := trivial

theorem abort {why : φ} (h : B why) : Confined A B (Task.abort why : Task σ ρ φ α) := h

theorem whenever {p : Prop} [Decidable p] {t : Task σ ρ φ Unit} (h : Confined A B t) :
    Confined A B (Task.whenever p t) := by
  unfold Task.whenever
  split
  · exact h
  · exact pure

theorem assert {p : Prop} [Decidable p] {why : φ} (h : B why) : Confined A B (Task.assert p why : Task σ ρ φ Unit) := by
  unfold Task.assert
  split
  · exact pure
  · exact abort h

theorem act {f : σ → σ} (h : ∀ s, A s (f s)) : Confined A B (Task.act f : Task σ ρ φ Unit) := by
  intro r s b s' hf
  cases hf
  exact ⟨h s, trivial⟩

theorem read {f : σ → β} (h : ∀ s, A s s) : Confined A B (Task.read f : Task σ ρ φ β) := by
  intro r s b s' hf
  cases hf
  exact ⟨h s, trivial⟩

theorem update {f : σ → β × σ} (h : ∀ s, A s (f s).2) : Confined A B (Task.update f : Task σ ρ φ β) := by
  intro r s b s' hf
  have ha := h s
  rw [Option.some.inj hf] at ha
  exact ⟨ha, trivial⟩

theorem ask {f : ρ → Option β} (h : ∀ s, A s s) : Confined A B (Task.ask f : Task σ ρ φ β) := by
  intro r s b s' hf
  obtain ⟨b', -, hp⟩ := Option.map_eq_some_iff.mp hf
  cases hp
  exact ⟨h s, trivial⟩

theorem await {f : ρ → Option β} (h : ∀ s, A s s) : Confined A B (Task.await f : Task σ ρ φ β) := by
  intro r s b s' hf
  obtain ⟨b', -, hp⟩ := Option.map_eq_some_iff.mp hf
  cases hp
  exact ⟨h s, trivial⟩

/-- Registering and dropping the waiter belong to the relation, too. -/
theorem race {w : Waiter σ ρ} {first : Bool} (h : Confined A B t)
    (hregister : ∀ s, A s (w.register s)) (hdrop : ∀ s, A s (w.drop s)) : Confined A B (t.race w first) := by
  induction t with
  | ret a =>
    intro r s b s' hf
    cases hf
    exact ⟨hdrop s, trivial⟩
  | abort why => exact h
  | step suspends f k ih =>
    cases suspends with
    | false =>
      intro r s b s' hf
      obtain ⟨ha, hk⟩ := h r s b s' hf
      exact ⟨ha, ih b hk⟩
    | true =>
      unfold Task.race
      intro r s b s' hf
      dsimp only at hf
      split at hf
      · cases hf
        refine ⟨hregister s, ?_⟩
        intro r' s₁ b' s₂ hf'
        dsimp only at hf'
        split at hf'
        · cases hf'
          exact ⟨hdrop s₁, trivial⟩
        · obtain ⟨p, hp, hq⟩ := Option.map_eq_some_iff.mp hf'
          cases hq
          obtain ⟨ha, hk⟩ := h r' s₁ p.1 p.2 hp
          exact ⟨ha, ih p.1 hk⟩
      · obtain ⟨p, hp, hq⟩ := Option.map_eq_some_iff.mp hf
        cases hq
        obtain ⟨ha, hk⟩ := h r s p.1 p.2 hp
        exact ⟨ha, ih p.1 hk⟩

/-- What the relation preserves, and the others keep, a confined task keeps. -/
theorem triple {C : Contract σ ρ φ} {P : σ → Prop} (h : Confined A B t) (hA : ∀ s s', P s → A s s' → P s')
    (hB : ∀ why s, B why → P s → C.aborts why s) (hrun : C.Holds false P) (hwait : C.Holds true P) :
    Triple C P t fun _ => P := by
  induction t with
  | ret a => exact fun _ hs => hs
  | abort why => exact .abort hrun fun s hP => hB why s h hP
  | step suspends f k ih =>
    intro s hs s' hrely
    have hholds : C.Holds suspends P := by cases suspends <;> assumption
    have hP := hholds.star hs hrely
    refine ⟨hholds.inv _ hP, fun r b t _ hf => ?_⟩
    obtain ⟨ha, hk⟩ := h r s' b t hf
    exact ih b hk t (hA s' t hP ha)

end Confined

/-! ## Outcomes -/

/-- Every result satisfies `Q`, and every abort `B`. -/
def Ends (Q : α → Prop) (B : φ → Prop) : Task σ ρ φ α → Prop
  | .ret a => Q a
  | .abort why => B why
  | .step _ f k => ∀ r s b s', f r s = some (b, s') → Ends Q B (k b)

/-- Execute a task with the given answers, nobody else acting; what is left of it. -/
def Task.exec : List ρ → Task σ ρ φ α → σ → Option (Task σ ρ φ α × σ)
  | [], t, s => some (t, s)
  | r :: rs, .step _ f k, s => (f r s).bind fun p => Task.exec rs (k p.1) p.2
  | _ :: _, _, _ => none

namespace Ends
variable {Q Q' : α → Prop} {R : β → Prop} {B B' : φ → Prop} {t : Task σ ρ φ α} {g : α → Task σ ρ φ β}

theorem mono (h : Ends Q B t) (hQ : ∀ a, Q a → Q' a) (hB : ∀ why, B why → B' why) : Ends Q' B' t := by
  induction t with
  | ret a => exact hQ a h
  | abort why => exact hB why h
  | step suspends f k ih => exact fun r s b s' hf => ih b (h r s b s' hf)

theorem bind (h : Ends Q B t) (hg : ∀ a, Q a → Ends R B (g a)) : Ends R B (t >>= g) := by
  induction t with
  | ret a => exact hg a h
  | abort why => exact h
  | step suspends f k ih => exact fun r s b s' hf => ih b (h r s b s' hf)

theorem pure {a : α} (h : Q a) : Ends Q B (pure a : Task σ ρ φ α) := h

/-- A single step may return anything. -/
theorem single {suspends : Bool} {f : ρ → σ → Option (α × σ)} :
    Ends (fun _ => True) B (Task.step suspends f Task.ret : Task σ ρ φ α) := fun _ _ _ _ _ => trivial

/-- A task that returns whatever it likes. -/
theorem of_confined {A : σ → σ → Prop} (h : Confined A B t) : Ends (fun _ => True) B t := by
  induction t with
  | ret a => trivial
  | abort why => exact h
  | step suspends f k ih => exact fun r s b s' hf => ih b (h r s b s' hf).2

/-- A part whose results are known, followed by a confined one. -/
theorem confined_bind {A : σ → σ → Prop} (h : Confined A B t) (he : Ends Q B' t)
    (hg : ∀ a, Q a → Confined A B (g a)) : Confined A B (t >>= g) := by
  induction t with
  | ret a => exact hg a he
  | abort why => exact h
  | step suspends f k ih =>
    intro r s b s' hf
    obtain ⟨ha, hk⟩ := h r s b s' hf
    exact ⟨ha, ih b hk (he r s b s' hf)⟩

/-- Whatever comes out of an execution is one of the outcomes. -/
theorem exec (h : Ends Q B t) {rs : List ρ} {s s' : σ} {t' : Task σ ρ φ α} (hrun : t.exec rs s = some (t', s')) :
    Ends Q B t' := by
  induction rs generalizing t s with
  | nil =>
    cases hrun
    exact h
  | cons r rs ih =>
    cases t with
    | ret a => cases hrun
    | abort why => cases hrun
    | step suspends f k =>
      obtain ⟨p, hp, hrest⟩ := Option.bind_eq_some_iff.mp hrun
      exact ih (h r s p.1 p.2 hp) hrest

end Ends

/-- An execution leaves a safe task, if every answer is admitted. -/
theorem Safe.exec {C : Contract σ ρ φ} {Q : α → σ → Prop} (hadmits : ∀ suspends s r, C.admits suspends s r)
    {rs : List ρ} {t t' : Task σ ρ φ α} {s s' : σ} (h : Safe C Q t s) (hrun : t.exec rs s = some (t', s')) :
    Safe C Q t' s' := by
  induction rs generalizing t s with
  | nil =>
    cases hrun
    exact h
  | cons r rs ih =>
    cases t with
    | ret a => cases hrun
    | abort why => cases hrun
    | step suspends f k =>
      obtain ⟨p, hp, hrest⟩ := Option.bind_eq_some_iff.mp hrun
      exact ih ((h s .refl).2 r p.1 p.2 (hadmits _ _ _) hp) hrest

/-! ## Races -/

/-- What a contract `C₀` for the raced task, and the results of both, must satisfy. -/
structure RaceRule (C C₀ : Contract σ ρ φ) (w : Waiter σ ρ) (first : Bool) (Q₀ : α → σ → Prop)
    (Q : Option α → σ → Prop) : Prop where
  rely : ∀ suspends s s', ReflTransGen (C.rely false) s s' → ReflTransGen (C₀.rely suspends) s s'
  inv : ∀ suspends s, C₀.inv suspends s → C.inv false s
  admits : ∀ suspends s r, C.admits false s r → C₀.admits suspends s r
  aborts : ∀ why s, C₀.aborts why s → C.aborts why s
  /-- While the task waits, from the registration on. -/
  waits : ∀ s s₁ s₂, (∀ s', ReflTransGen (C₀.rely true) s s' → C₀.inv true s') → ReflTransGen (C.rely false) s s₁ →
    ReflTransGen (C.rely true) (w.register s₁) s₂ → C.inv true s₂ ∧ (w.notified s₂ = true → Q none (w.drop s₂)) ∧
    ∀ r, C.admits true s₂ r → (w.notified s₂ && (first || w.interrupts r)) = false →
      ReflTransGen (C₀.rely true) s s₂ ∧ C₀.admits true s₂ r
  returns : ∀ a s s', Q₀ a s → ReflTransGen (C.rely false) s s' → C.inv false s' ∧ Q (some a) (w.drop s')

theorem Safe.race {C C₀ : Contract σ ρ φ} {w : Waiter σ ρ} {first : Bool} {Q₀ : α → σ → Prop} {Q : Option α → σ → Prop}
    (rule : RaceRule C C₀ w first Q₀ Q) {t : Task σ ρ φ α} {s : σ} (h : Safe C₀ Q₀ t s) :
    Safe C Q (t.race w first) s := by
  induction t generalizing s with
  | ret a =>
    intro s' hrely
    obtain ⟨hinv, hQ⟩ := rule.returns a s s' h hrely
    refine ⟨hinv, fun r b t _ hf => ?_⟩
    cases hf
    exact hQ
  | abort why => exact fun s' hrely => rule.aborts why s' (h s' (rule.rely false s s' hrely))
  | step suspends f k ih =>
    cases suspends with
    | false =>
      intro s' hrely
      obtain ⟨hinv, hnext⟩ := h s' (rule.rely false s s' hrely)
      exact ⟨rule.inv _ _ hinv, fun r b t hr hf => ih b (hnext r b t (rule.admits false s' r hr) hf)⟩
    | true =>
      unfold Task.race
      intro s₁ hrely
      obtain ⟨hinv, hnext⟩ := h s₁ (rule.rely true s s₁ hrely)
      refine ⟨rule.inv _ _ hinv, fun r b t hr hf => ?_⟩
      by_cases hpending : w.pending r
      · -- the task is not ready: the waiter is registered
        simp only [if_pos hpending] at hf
        cases hf
        intro s₂ hwait
        obtain ⟨hinv', hdrop, hrest⟩ := rule.waits s s₁ s₂ (fun s' hs' => (h s' hs').1) hrely hwait
        refine ⟨hinv', fun r' b' t' hr' hf' => ?_⟩
        by_cases htaken : (w.notified s₂ && (first || w.interrupts r')) = true
        · simp only [if_pos htaken] at hf'
          cases hf'
          simp only [Bool.and_eq_true] at htaken
          exact hdrop htaken.1
        · simp only [if_neg htaken] at hf'
          obtain ⟨p, hp, hbt⟩ := Option.map_eq_some_iff.mp hf'
          cases hbt
          obtain ⟨hstar, hadmits⟩ := hrest r' hr' (by simpa using htaken)
          exact ih p.1 ((h s₂ hstar).2 r' p.1 p.2 hadmits hp)
      · simp only [if_neg hpending] at hf
        obtain ⟨p, hp, hbt⟩ := Option.map_eq_some_iff.mp hf
        cases hbt
        exact ih p.1 (hnext r p.1 p.2 (rule.admits true s₁ r hr) hp)

/-- Nothing more is asked while the task waits than the invariant says. -/
theorem Triple.whileWaiting {C : Contract σ ρ φ} {P I : σ → Prop} {Q : α → σ → Prop} {t : Task σ ρ φ α}
    (h : Triple C P t Q) (hI : ∀ s, C.inv true s → I s) : Triple (C.whileWaiting I) P t Q := by
  intro s hs
  have hsafe := h s hs
  clear hs h
  induction t generalizing s with
  | ret a => exact hsafe
  | abort why => exact hsafe
  | step suspends f k ih =>
    intro s' hrely
    obtain ⟨hinv, hnext⟩ := hsafe s' hrely
    refine ⟨⟨hinv, ?_⟩, fun r b t hr hf => ih b t (hnext r b t hr hf)⟩
    rintro rfl
    exact hI s' hinv

/-- The others may do at least as much while the task waits as while it runs, and registering and dropping the waiter are
steps that the task tolerates anyway. -/
structure Contract.Tolerates (C : Contract σ ρ φ) (w : Waiter σ ρ) : Prop where
  rely : ∀ s s', C.rely false s s' → C.rely true s s'
  inv : ∀ s, C.inv true s → C.inv false s
  admits : ∀ suspends s r, C.admits suspends s r
  register : ∀ s, C.rely true s (w.register s)
  drop : ∀ s, C.rely false s (w.drop s)

section
variable {C : Contract σ ρ φ} {w : Waiter σ ρ} {first : Bool} {P I : σ → Prop} {Q : α → σ → Prop} {t : Task σ ρ φ α}

theorem Triple.race (hC : C.Tolerates w) (hQ : ∀ a, C.Holds false (Q a)) (h : Triple (C.whileWaiting I) P t Q) :
    Triple C P (t.race w first) fun o s => o.elim (I s) (Q · s) := by
  have hrule : RaceRule C (C.whileWaiting I) w first Q fun o s => o.elim (I s) (Q · s) := by
    refine ⟨?_, ?_, ?_, ?_, ?_, ?_⟩
    · intro suspends s s' hstar
      cases suspends
      · exact hstar
      · exact hstar.lift id hC.rely
    · rintro (_ | _) s ⟨hs, -⟩
      · exact hs
      · exact hC.inv s hs
    · exact fun suspends s r _ => hC.admits suspends s r
    · exact fun _ _ ha => ha
    · intro s s₁ s₂ hs hrun hwait
      have hstar : ReflTransGen (C.rely true) s s₂ := ((hrun.lift id hC.rely).tail (hC.register s₁)).trans hwait
      exact ⟨(hs s₂ hstar).1, fun _ => (hs _ (hstar.tail (hC.rely _ _ (hC.drop s₂)))).2 rfl,
        fun r _ _ => ⟨hstar, hC.admits true s₂ r⟩⟩
    · intro a s s' hs hstar
      have hs' := (hQ a).star hs hstar
      exact ⟨(hQ a).inv _ hs', (hQ a).stable _ _ hs' (hC.drop s')⟩
  exact fun s hs => Safe.race hrule (h s hs)

/-- When nothing has to be known of a task that is dropped. -/
theorem Triple.race_some (hC : C.Tolerates w) (hQ : ∀ a, C.Holds false (Q a)) (h : Triple C P t Q) :
    Triple C P (t.race w first) fun o s => ∀ a, o = some a → Q a s := by
  refine (Triple.race hC hQ (h.whileWaiting (I := fun _ => True) fun _ _ => trivial)).post ?_
  rintro o s hs a rfl
  exact hs

/-- What holds all the time holds when the task is dropped. -/
theorem Triple.race_await {g : ρ → Option α} (hC : C.Tolerates w) (hP : ∀ suspends, C.Holds suspends P) :
    Triple C P ((Task.await g).race w first) fun _ => P := by
  have hinner : Triple (C.whileWaiting P) P (Task.await g) fun _ => P :=
    .await ⟨fun s hs => ⟨(hP true).inv s hs, fun _ => hs⟩, (hP true).stable⟩ fun _ _ _ hs _ => hs
  refine (Triple.race hC (fun _ => hP false) hinner).post fun o s hs => ?_
  cases o with
  | none => exact hs
  | some a => exact hs

end

/-! ## Runs of a task that keeps its contract -/

section
variable {C : Contract σ ρ φ} {J : σ → Prop} {body : Task σ ρ φ Unit} {user : ε → σ → Option σ}
  {cond : Config σ ρ φ → TaskEvent ρ ε → Prop}

/-- An event that meets what the contract relies on leaves a safe task. -/
theorem Safe.next (hbody : Triple C J body fun _ => J) (hstable : ∀ s s', J s → C.rely false s s' → J s')
    (hown : ∀ c r, cond c (.own r) → C.admits c.task.suspends c.shared r)
    (hother : ∀ c e s', cond c (.other e) → user e c.shared = some s' → C.rely c.task.suspends c.shared s')
    {e : TaskEvent ρ ε} {c c' : Config σ ρ φ} (h : Safe C (fun _ => J) c.task c.shared) (he : cond c e)
    (hstep : Config.step body user e c = some c') : Safe C (fun _ => J) c'.task c'.shared := by
  obtain ⟨s, t⟩ := c
  cases e with
  | other e =>
    obtain ⟨s', hs', rfl⟩ := Option.map_eq_some_iff.mp hstep
    exact h.interfere (fun _ => hstable) (hother ⟨s, t⟩ e s' he hs')
  | own r =>
    cases t with
    | ret a =>
      cases hstep
      exact hbody s h
    | abort why => cases hstep
    | step suspends f k =>
      obtain ⟨p, hp, rfl⟩ := Option.map_eq_some_iff.mp hstep
      exact (h s .refl).2 r p.1 p.2 (hown _ r he) hp

/-- Every configuration of a run is safe, if the events meet what the contract relies on. -/
theorem Triple.invariant {s₀ : σ} (h : Triple C J body fun _ => J) (hstable : ∀ s s', J s → C.rely false s s' → J s')
    (hown : ∀ c r, cond c (.own r) → C.admits c.task.suspends c.shared r)
    (hother : ∀ c e s', cond c (.other e) → user e c.shared = some s' → C.rely c.task.suspends c.shared s')
    (h₀ : J s₀) {c : Config σ ρ φ} (hruns : Config.Runs body user cond s₀ c) :
    Safe C (fun _ => J) c.task c.shared := by
  have hinit : ∀ c : Config σ ρ φ, c = ⟨s₀, .ret ()⟩ → Safe C (fun _ => J) c.task c.shared := by
    rintro c rfl
    exact h₀
  refine Reachable.invariant hinit ?_ hruns
  rintro c c' hsafe ⟨e, hcond, hstep⟩
  exact hsafe.next h hstable hown hother hcond hstep

/-- A run from any configuration that is safe. -/
theorem Safe.run (hbody : Triple C J body fun _ => J) (hstable : ∀ s s', J s → C.rely false s s' → J s')
    (hown : ∀ suspends s r, C.admits suspends s r)
    (hother : ∀ suspends e s s', user e s = some s' → C.rely suspends s s') {es : List (TaskEvent ρ ε)}
    {c c' : Config σ ρ φ} (h : Safe C (fun _ => J) c.task c.shared) (hrun : Config.run body user es c = some c') :
    Safe C (fun _ => J) c'.task c'.shared := by
  induction es generalizing c with
  | nil =>
    cases hrun
    exact h
  | cons e es ih =>
    obtain ⟨c₁, hstep, hrest⟩ := Option.bind_eq_some_iff.mp hrun
    have hnext : Safe C (fun _ => J) c₁.task c₁.shared :=
      @Safe.next _ _ _ _ C J body user (fun _ _ => True) hbody hstable (fun _ _ _ => hown _ _ _)
        (fun _ e _ _ h => hother _ e _ _ h) e c c₁ h trivial hstep
    exact ih hnext hrest

end

section
variable {C : Contract σ ρ φ} {J : σ → Prop} {s : σ}

theorem Safe.of_ret (h : Safe C (fun _ : Unit => J) (.ret ()) s) : J s := h

theorem Safe.of_abort {why : φ} (h : Safe C (fun _ : Unit => J) (.abort why) s) : C.aborts why s := h s .refl

/-- What all parts of the contract imply holds. -/
theorem Safe.now {t : Task σ ρ φ α} {Q : α → σ → Prop} {I : σ → Prop} (h : Safe C Q t s)
    (hret : ∀ a s, Q a s → I s) (habort : ∀ why s, C.aborts why s → I s)
    (hstep : ∀ suspends s, C.inv suspends s → I s) : I s := by
  cases t with
  | ret a => exact hret a s h
  | abort why => exact habort why s (h s .refl)
  | step suspends f k => exact hstep suspends s (h s .refl).1

/-- In a run, what all parts of the contract imply holds all the time. -/
theorem Safe.always {t : Task σ ρ φ Unit} {I : σ → Prop} (h : Safe C (fun _ => J) t s) (hret : ∀ s, J s → I s)
    (habort : ∀ why s, C.aborts why s → I s) (hstep : ∀ suspends s, C.inv suspends s → I s) : I s :=
  h.now (fun _ => hret) habort hstep

/-- In a run, the invariant holds whenever the task waits. -/
theorem Safe.of_suspends {t : Task σ ρ φ Unit} (h : Safe C (fun _ => J) t s) (ht : t.suspends = true) :
    C.inv true s := by
  cases t with
  | ret a => cases ht
  | abort why => cases ht
  | step suspends f k =>
    cases ht
    exact (h s .refl).1

end

end Qunet.Lib
