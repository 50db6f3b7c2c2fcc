import Qunet.Lib.Machine
import Mathlib.Data.Finset.Piecewise
import Mathlib.Data.Fintype.Basic
import Mathlib.Data.List.Infix

/-!
# FIFO channels and simulations

* `Simulation` : every step of one transition system is finitely many steps of another (`Simulation.run`,
  `Simulation.reachable`);
* `OneSide` : a family of independent systems of which one takes a step (`OneSide.all`);
* `Fifo` : a channel that delivers what is sent, in order and once; a step of a system is finitely many steps of one if
  it only extends what was sent and what was delivered, and the second stays a prefix of the first (`Fifo.extend`).
-/

namespace Qunet.Lib
open Relation

/-! ## Simulations -/

section Simulation
variable {σ τ : Type}

/-- `R` relates every state of a system to one of an abstract system that can follow. -/
structure Simulation (init : σ → Prop) (step : σ → σ → Prop) (init' : τ → Prop) (step' : τ → τ → Prop)
    (R : σ → τ → Prop) : Prop where
  start : ∀ s, init s → ∃ t, init' t ∧ R s t
  follow : ∀ s t s', R s t → step s s' → ∃ t', ReflTransGen step' t t' ∧ R s' t'

variable {init : σ → Prop} {step : σ → σ → Prop} {init' : τ → Prop} {step' : τ → τ → Prop} {R : σ → τ → Prop}

/-- A run of the system is a run of the abstract one. -/
theorem Simulation.run (h : Simulation init step init' step' R) {s s' : σ} {t : τ} (hR : R s t)
    (hrun : ReflTransGen step s s') : ∃ t', ReflTransGen step' t t' ∧ R s' t' := by
  induction hrun with
  | refl => exact ⟨t, .refl, hR⟩
  | tail _ hst ih =>
    obtain ⟨t₁, hrun, hR₁⟩ := ih
    obtain ⟨t₂, hrun', hR₂⟩ := h.follow _ t₁ _ hR₁ hst
    exact ⟨t₂, hrun.trans hrun', hR₂⟩

theorem Simulation.reachable (h : Simulation init step init' step' R) {s : σ} (hs : Reachable init step s) :
    ∃ t, Reachable init' step' t ∧ R s t := by
  obtain ⟨s₀, h₀, hrun⟩ := hs
  obtain ⟨t₀, ht₀, hR₀⟩ := h.start s₀ h₀
  obtain ⟨t, hrun', hR⟩ := h.run hR₀ hrun
  exact ⟨t, ⟨t₀, ht₀, hrun'⟩, hR⟩

end Simulation

/-! ## Independent systems -/

section OneSide
variable {ι σ : Type} [DecidableEq ι]

/-- The system with index `i` takes a step. -/
inductive OneSide (step : σ → σ → Prop) (f : ι → σ) : (ι → σ) → Prop where
  | at (i : ι) {s : σ} (h : step (f i) s) : OneSide step f (Function.update f i s)

/-- Steps of one system are steps of the family. -/
theorem OneSide.lift {step : σ → σ → Prop} (f : ι → σ) (i : ι) {s : σ} (h : ReflTransGen step (f i) s) :
    ReflTransGen (OneSide step) f (Function.update f i s) := by
  induction h with
  | refl => rw [Function.update_eq_self]
  | @tail s t _ hst ih =>
    have hstep : OneSide step (Function.update f i s) (Function.update (Function.update f i s) i t) :=
      .at i (by rwa [Function.update_self])
    rw [Function.update_idem] at hstep
    exact ih.tail hstep

/-- Each system takes its own steps. -/
theorem OneSide.all [Fintype ι] {step : σ → σ → Prop} {f g : ι → σ} (h : ∀ i, ReflTransGen step (f i) (g i)) :
    ReflTransGen (OneSide step) f g := by
  have hpart : ∀ s : Finset ι, ReflTransGen (OneSide step) f (s.piecewise g f) := by
    intro s
    induction s using Finset.induction_on with
    | empty => rw [Finset.piecewise_empty]
    | insert i s hi ih =>
      rw [Finset.piecewise_insert]
      refine ih.trans (OneSide.lift _ i ?_)
      rw [Finset.piecewise_eq_of_notMem s g f hi]
      exact h i
  have hall := hpart Finset.univ
  rwa [Finset.piecewise_univ] at hall

end OneSide

/-! ## Channels -/

/-- What was sent on a channel, and what it has delivered. -/
@[ext] structure Fifo (α : Type) where
  sent : List α := []
  delivered : List α := []

namespace Fifo
variable {α : Type}

/-- A channel accepts a message, or delivers the oldest one it has not delivered yet. -/
inductive Step (c : Fifo α) : Fifo α → Prop where
  | send (x : α) : Step c { c with sent := c.sent ++ [x] }
  | deliver (x : α) (h : c.delivered ++ [x] <+: c.sent) : Step c { c with delivered := c.delivered ++ [x] }

theorem send_all (c : Fifo α) (xs : List α) : ReflTransGen Step c { c with sent := c.sent ++ xs } := by
  induction xs generalizing c with
  | nil => rw [List.append_nil]
  | cons x xs ih =>
    have hrest := ih { c with sent := c.sent ++ [x] }
    rw [List.append_assoc, List.singleton_append] at hrest
    exact hrest.head (.send x)

theorem deliver_all (c : Fifo α) (xs : List α) (h : c.delivered ++ xs <+: c.sent) :
    ReflTransGen Step c { c with delivered := c.delivered ++ xs } := by
  induction xs generalizing c with
  | nil => rw [List.append_nil]
  | cons x xs ih =>
    have hone : c.delivered ++ [x] <+: c.sent := by
      rw [List.append_cons] at h
      exact (List.prefix_append _ _).trans h
    have hrest := ih { c with delivered := c.delivered ++ [x] } (by
      rwa [List.append_assoc, List.singleton_append])
    rw [List.append_assoc, List.singleton_append] at hrest
    exact hrest.head (.deliver x hone)

/-- More was sent and more was delivered. -/
theorem extend {c d : Fifo α} (hsent : c.sent <+: d.sent) (hdelivered : c.delivered <+: d.delivered)
    (h : d.delivered <+: d.sent) : ReflTransGen Step c d := by
  obtain ⟨xs, hxs⟩ := hsent
  obtain ⟨ys, hys⟩ := hdelivered
  have hsend := c.send_all xs
  have hdeliver := deliver_all { c with sent := c.sent ++ xs } ys (by rwa [hxs, hys])
  rw [hxs, hys] at hdeliver
  rw [hxs] at hsend
  exact hsend.trans hdeliver

end Fifo

end Qunet.Lib
