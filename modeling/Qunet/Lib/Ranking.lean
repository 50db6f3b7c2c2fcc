import Mathlib.Data.List.Sort
import Mathlib.Order.Defs.Unbundled

/-!
# Comparisons by a rank

* `perm_filterMap_indices` : a list rearranged by its indices;
* `Ranks before rank` : a comparison function that compares a rank;
* `Ranks.strictWeakOrder` : such a comparison is a strict weak order, as `std::sort` demands;
* `Ranks.pairwise` : in a list where nothing comes before what stands in front of it, the ranks do not decrease;
* `Ranks.exists_arrangement` : every list has such an arrangement.
-/

namespace Qunet.Lib

variable {α β : Type} [LinearOrder β]

/-- The entries of a list at some of its indices. -/
theorem filterMap_indices {γ : Type} {l : List γ} {s : List (γ × Nat)} (h : ∀ x ∈ s, x ∈ l.zipIdx) :
    (s.map Prod.snd).filterMap (l[·]?) = s.map Prod.fst := by
  rw [List.filterMap_map, ← List.filterMap_eq_map]
  exact List.filterMap_congr fun x hx => List.mem_zipIdx_iff_getElem?.mp (h x hx)

/-- An arrangement of the indices arranges the list. -/
theorem perm_filterMap_indices {γ : Type} {l : List γ} {indices : List Nat}
    (h : indices.Perm (List.range l.length)) : (indices.filterMap (l[·]?)).Perm l := by
  have hall : (List.range l.length).filterMap (l[·]?) = l := by
    have hrange := filterMap_indices (l := l) (s := l.zipIdx) fun _ hx => hx
    rwa [List.zipIdx_map_snd, ← List.range_eq_range', List.zipIdx_map_fst] at hrange
  have hperm := h.filterMap (l[·]?)
  rwa [hall] at hperm

/-- `before` compares the ranks. -/
def Ranks (before : α → α → Bool) (rank : α → β) : Prop := ∀ a b, before a b = true ↔ rank a < rank b

namespace Ranks
variable {before : α → α → Bool} {rank : α → β}

theorem not_before (h : Ranks before rank) (a b : α) : before b a = false ↔ rank a ≤ rank b := by
  rw [Bool.eq_false_iff, Ne, h b a, not_lt]

/-- Neither comes before the other exactly if the ranks are the same. -/
theorem incomparable (h : Ranks before rank) (a b : α) :
    (¬ before a b = true ∧ ¬ before b a = true) ↔ rank a = rank b := by
  rw [h a b, h b a, not_lt, not_lt, and_comm]
  exact le_antisymm_iff.symm

theorem strictWeakOrder (h : Ranks before rank) : IsStrictWeakOrder α fun a b => before a b = true where
  irrefl a := by
    rw [h a a]
    exact lt_irrefl _
  trans a b c hab hbc := (h a c).mpr (((h a b).mp hab).trans ((h b c).mp hbc))
  incomp_trans a b c hab hbc := by
    rw [h.incomparable] at hab hbc ⊢
    exact hab.trans hbc

theorem pairwise (h : Ranks before rank) {l : List α} (hl : l.Pairwise fun a b => before b a = false) :
    l.Pairwise fun a b => rank a ≤ rank b :=
  hl.imp fun hab => (h.not_before _ _).mp hab

/-- The indices of a list, in the order of the ranks. -/
theorem exists_arrangement (h : Ranks before rank) (l : List α) :
    ∃ indices : List Nat, indices.Perm (List.range l.length) ∧
      (indices.filterMap (l[·]?)).Pairwise fun a b => before b a = false := by
  let sorted := l.zipIdx.insertionSort fun x y => rank x.1 ≤ rank y.1
  have hperm : sorted.Perm l.zipIdx := List.perm_insertionSort _ _
  have htotal : Std.Total fun x y : α × Nat => rank x.1 ≤ rank y.1 := ⟨fun _ _ => le_total _ _⟩
  have htrans : IsTrans (α × Nat) fun x y => rank x.1 ≤ rank y.1 := ⟨fun _ _ _ => le_trans⟩
  have hsorted : sorted.Pairwise fun x y => rank x.1 ≤ rank y.1 := List.pairwise_insertionSort _ _
  refine ⟨sorted.map Prod.snd, ?_, ?_⟩
  · have hrange := hperm.map Prod.snd
    rwa [List.zipIdx_map_snd, ← List.range_eq_range'] at hrange
  · rw [filterMap_indices fun _ hx => hperm.mem_iff.mp hx, List.pairwise_map]
    exact hsorted.imp fun hxy => (h.not_before _ _).mpr hxy

end Ranks

end Qunet.Lib
