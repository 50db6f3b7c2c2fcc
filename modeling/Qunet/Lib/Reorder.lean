import Mathlib.Data.List.Basic
import Mathlib.Data.List.Range

/-!
# In-order release of numbered arrivals

Arrivals carry numbers `1, 2, 3, …` and come in any order, with gaps and repetitions.

* `firstCopy key l k` : the first arrival of `l` with number `k`;
* `Copies key l out` : `out` is the first copies of the numbers `1, …, out.length`, in this order;
* `Released key l out` : moreover number `out.length + 1` has not arrived, so nothing more can be released.
-/

namespace Qunet.Lib

variable {α : Type} (key : α → Nat)

/-- The first arrival with number `k`. -/
def firstCopy (l : List α) (k : Nat) : Option α := l.find? fun a => key a = k

/-- `out` is the first copies of the numbers `1, …, out.length`. -/
def Copies (l out : List α) : Prop := ∀ i < out.length, out[i]? = firstCopy key l (i + 1)

/-- Everything that can be released in order has been. -/
structure Released (l out : List α) : Prop where
  copies : Copies key l out
  missing : firstCopy key l (out.length + 1) = none

variable {key}

theorem key_of_firstCopy {l : List α} {k : Nat} {a : α} (h : firstCopy key l k = some a) : key a = k := by
  simpa using List.find?_some h

theorem firstCopy_eq_none {l : List α} {k : Nat} : firstCopy key l k = none ↔ ∀ a ∈ l, key a ≠ k := by
  simp [firstCopy]

theorem firstCopy_concat (l : List α) (x : α) (k : Nat) :
    firstCopy key (l ++ [x]) k = (firstCopy key l k).or (if key x = k then some x else none) := by
  unfold firstCopy
  rw [List.find?_append]
  congr 1
  by_cases h : key x = k <;> simp [h]

theorem firstCopy_concat_of_ne {l : List α} {x : α} {k : Nat} (h : key x ≠ k) :
    firstCopy key (l ++ [x]) k = firstCopy key l k := by
  rw [firstCopy_concat, if_neg h, Option.or_none]

theorem firstCopy_concat_of_some {l : List α} {x a : α} {k : Nat} (h : firstCopy key l k = some a) :
    firstCopy key (l ++ [x]) k = some a := by
  rw [firstCopy_concat, h, Option.some_or]

theorem Copies.nil (l : List α) : Copies key l [] := fun i hi => absurd hi (Nat.not_lt_zero i)

theorem Copies.isSome {l out : List α} (h : Copies key l out) {i : Nat} (hi : i < out.length) :
    ∃ a, firstCopy key l (i + 1) = some a :=
  ⟨out[i], by rw [← h i hi, List.getElem?_eq_getElem hi]⟩

/-- A new arrival changes no first copy. -/
theorem Copies.arrive {l out : List α} (h : Copies key l out) (x : α) : Copies key (l ++ [x]) out := by
  intro i hi
  obtain ⟨a, ha⟩ := h.isSome hi
  rw [h i hi, ha, firstCopy_concat_of_some ha]

/-- Releasing the first copy of the next number. -/
theorem Copies.release {l out : List α} (h : Copies key l out) {a : α}
    (ha : firstCopy key l (out.length + 1) = some a) : Copies key l (out ++ [a]) := by
  intro i hi
  rw [List.length_append, List.length_singleton] at hi
  rcases Nat.lt_succ_iff_lt_or_eq.mp hi with hlt | rfl
  · rw [List.getElem?_append_left hlt, h i hlt]
  · rw [List.getElem?_concat_length, ha]

theorem Copies.keys {l out : List α} (h : Copies key l out) : out.map key = List.range' 1 out.length := by
  apply List.ext_getElem
  · simp
  · intro i h₁ h₂
    rw [List.length_map] at h₁
    have hi := h i h₁
    rw [List.getElem?_eq_getElem h₁] at hi
    rw [List.getElem_map, List.getElem_range', key_of_firstCopy hi.symm]
    omega

theorem Copies.mem {l out : List α} (h : Copies key l out) {a : α} (ha : a ∈ out) :
    firstCopy key l (key a) = some a := by
  obtain ⟨i, hi, rfl⟩ := List.getElem_of_mem ha
  have hc := h i hi
  rw [List.getElem?_eq_getElem hi] at hc
  rw [key_of_firstCopy hc.symm, ← hc]

/-- The first unreleased number is the smallest one that never arrived. -/
theorem Released.smallest {l out : List α} (h : Released key l out) :
    (∀ a ∈ l, key a ≠ out.length + 1) ∧ ∀ k, 1 ≤ k → k ≤ out.length → ∃ a ∈ l, key a = k := by
  refine ⟨firstCopy_eq_none.mp h.missing, fun k h1 hk => ?_⟩
  obtain ⟨a, ha⟩ := h.copies.isSome (show k - 1 < out.length by omega)
  rw [Nat.sub_add_cancel h1] at ha
  exact ⟨a, List.mem_of_find?_eq_some ha, key_of_firstCopy ha⟩

end Qunet.Lib
