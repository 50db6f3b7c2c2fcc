import Mathlib.Data.List.Basic

/-!
# Computations with a trace

* `Traced γ φ ε α` : a computation that records `γ`s and returns, fails with an `ε` or is aborted by a fault `φ`;
* `Traced.Safe P` : the computation is not aborted, and everything that it records satisfies `P`;
* `safe_bind_iff`, `safe_record_iff`, … : safety is decided step by step.
-/

namespace Qunet.Lib

inductive Ending (φ ε α : Type) where
  | returned (a : α)
  | failed (e : ε)
  | aborted (f : φ)
  deriving DecidableEq

structure Traced (γ φ ε α : Type) where
  trace : List γ
  ending : Ending φ ε α

namespace Traced
variable {γ φ ε α β : Type}

protected def bind (r : Traced γ φ ε α) (f : α → Traced γ φ ε β) : Traced γ φ ε β :=
  match r.ending with
  | .returned a => { trace := r.trace ++ (f a).trace, ending := (f a).ending }
  | .failed e => { trace := r.trace, ending := .failed e }
  | .aborted x => { trace := r.trace, ending := .aborted x }

instance : Monad (Traced γ φ ε) where
  pure a := { trace := [], ending := .returned a }
  bind := Traced.bind

def record (c : γ) : Traced γ φ ε Unit := { trace := [c], ending := .returned () }

def fail (e : ε) : Traced γ φ ε α := { trace := [], ending := .failed e }

def abort (f : φ) : Traced γ φ ε α := { trace := [], ending := .aborted f }

/-- The result of a computation that records nothing. -/
def ofExcept : Except ε α → Traced γ φ ε α
  | .ok a => pure a
  | .error e => fail e

/-- Everything recorded satisfies `P`, and no fault has occurred. -/
def Safe (P : γ → Prop) (r : Traced γ φ ε α) : Prop := (∀ c ∈ r.trace, P c) ∧ ∀ f, r.ending ≠ .aborted f

variable {P : γ → Prop}

@[simp] theorem safe_pure (a : α) : Safe P (pure a : Traced γ φ ε α) :=
  ⟨fun _ h => absurd h List.not_mem_nil, fun _ h => nomatch h⟩

@[simp] theorem safe_fail (e : ε) : Safe P (fail e : Traced γ φ ε α) :=
  ⟨fun _ h => absurd h List.not_mem_nil, fun _ h => nomatch h⟩

@[simp] theorem not_safe_abort (f : φ) : ¬ Safe P (abort f : Traced γ φ ε α) := fun h => h.2 f rfl

@[simp] theorem safe_record_iff (c : γ) : Safe P (record c : Traced γ φ ε Unit) ↔ P c := by
  refine ⟨fun h => h.1 c List.mem_cons_self, fun h => ⟨fun d hd => ?_, fun f hf => nomatch hf⟩⟩
  rwa [List.mem_singleton.mp hd]

@[simp] theorem pure_ending (a : α) : (pure a : Traced γ φ ε α).ending = .returned a := rfl

@[simp] theorem record_ending (c : γ) : (record c : Traced γ φ ε Unit).ending = .returned () := rfl

theorem bind_ending {r : Traced γ φ ε α} {a : α} (h : r.ending = .returned a) (f : α → Traced γ φ ε β) :
    (r >>= f).ending = (f a).ending := by
  show (Traced.bind r f).ending = _
  rw [Traced.bind, h]

theorem bind_failed {r : Traced γ φ ε α} {e : ε} (h : r.ending = .failed e) (f : α → Traced γ φ ε β) :
    (r >>= f).ending = .failed e := by
  show (Traced.bind r f).ending = _
  rw [Traced.bind, h]

/-- What returns has returned in both parts. -/
theorem bind_returned {r : Traced γ φ ε α} {f : α → Traced γ φ ε β} {b : β} (h : (r >>= f).ending = .returned b) :
    ∃ a, r.ending = .returned a ∧ (f a).ending = .returned b := by
  change (Traced.bind r f).ending = _ at h
  unfold Traced.bind at h
  cases hr : r.ending with
  | returned a =>
    rw [hr] at h
    exact ⟨a, rfl, h⟩
  | failed e =>
    rw [hr] at h
    cases h
  | aborted x =>
    rw [hr] at h
    cases h

/-- Both parts are safe. -/
theorem safe_bind_iff {r : Traced γ φ ε α} {f : α → Traced γ φ ε β} :
    Safe P (r >>= f) ↔ Safe P r ∧ ∀ a, r.ending = .returned a → Safe P (f a) := by
  show Safe P (Traced.bind r f) ↔ _
  unfold Traced.bind Safe
  cases hr : r.ending with
  | returned a =>
    simp only [List.mem_append, or_imp, forall_and, Ending.returned.injEq, forall_eq']
    constructor
    · rintro ⟨⟨hr, hf⟩, hend⟩
      exact ⟨⟨hr, fun _ h => nomatch h⟩, hf, hend⟩
    · rintro ⟨⟨hr, -⟩, hf, hend⟩
      exact ⟨⟨hr, hf⟩, hend⟩
  | failed e =>
    constructor
    · rintro ⟨hr, -⟩
      exact ⟨⟨hr, fun _ h => nomatch h⟩, fun _ h => nomatch h⟩
    · rintro ⟨⟨hr, -⟩, -⟩
      exact ⟨hr, fun _ h => nomatch h⟩
  | aborted x =>
    constructor
    · rintro ⟨-, hend⟩
      exact absurd rfl (hend x)
    · rintro ⟨⟨-, hend⟩, -⟩
      exact absurd rfl (hend x)

theorem safe_record_bind_iff {c : γ} {f : Unit → Traced γ φ ε β} :
    Safe P (record c >>= f) ↔ P c ∧ Safe P (f ()) := by
  rw [safe_bind_iff, safe_record_iff]
  exact and_congr_right fun _ => ⟨fun h => h () rfl, fun h _ _ => h⟩

/-- A step that records nothing and is not aborted leaves the safety to what follows. -/
theorem safe_ofExcept_bind_iff {x : Except ε α} {f : α → Traced γ φ ε β} :
    Safe P (ofExcept x >>= f) ↔ ∀ a, x = .ok a → Safe P (f a) := by
  rw [safe_bind_iff]
  cases x with
  | error e =>
    constructor
    · rintro - a ⟨⟩
    · rintro -
      exact ⟨safe_fail e, fun _ h => nomatch h⟩
  | ok a =>
    constructor
    · rintro ⟨-, h⟩ b hb
      cases hb
      exact h a rfl
    · intro h
      refine ⟨safe_pure a, fun b hb => ?_⟩
      cases hb
      exact h a rfl

end Traced

end Qunet.Lib
