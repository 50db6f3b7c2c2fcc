import Mathlib.Data.List.Sort
import Mathlib.Data.List.Nodup
import Mathlib.Data.List.Range
import Mathlib.Data.List.Perm.Subperm
import Mathlib.Algebra.BigOperators.Intervals
import Mathlib.Algebra.Order.BigOperators.Group.Finset

/-!
# Numbered pieces

A whole is a list of parts; its pieces carry the index of their part and are collected in any order. And a list is cut
into parts of given sizes.

* `inOrder index l` : the pieces sorted by their indices;
* `length_eq_iff_covers` : without repetitions, there are as many pieces as parts iff every part is there;
* `map_index_inOrder` : the indices of a complete collection, sorted, are `0, 1, 2, …`;
* **`map_inOrder`** : the values of a complete collection, sorted, are the parts;
* `Cut size i l ps` : `l` is cut into the parts `ps`, of the sizes `size i`, `size (i + 1)`, …;
* `Cut.flatten`, `Cut.length_le_iff` : the parts together are `l`, and how many they are;
* `offsetOf parts i` : where the part `i` begins in the whole, `offsetOf_inj`, `exists_part` (every position lies in a
  part);
* **`sum_lengths_eq_iff`** : the lengths of distinct parts add up to the length of the whole iff they are all the parts.
-/

namespace Qunet.Lib

variable {α β : Type} {index : α → Nat} {value : α → β} {l : List α} {parts : List β}

/-- The pieces in the order of their indices. -/
def inOrder (index : α → Nat) (l : List α) : List α := l.insertionSort fun a b => index a ≤ index b

/-- Distinct pieces of a whole with `n` parts. -/
structure Pieces (index : α → Nat) (n : Nat) (l : List α) : Prop where
  nodup : (l.map index).Nodup
  lt : ∀ a ∈ l, index a < n

theorem Pieces.subperm {n : Nat} (h : Pieces index n l) : (l.map index).Subperm (List.range n) := by
  apply h.nodup.subperm
  intro i hi
  obtain ⟨a, ha, rfl⟩ := List.mem_map.mp hi
  exact List.mem_range.mpr (h.lt a ha)

theorem Pieces.length_le {n : Nat} (h : Pieces index n l) : l.length ≤ n := by
  have hle := h.subperm.length_le
  rwa [List.length_map, List.length_range] at hle

/-- As many pieces as parts are all the parts. -/
theorem Pieces.perm {n : Nat} (h : Pieces index n l) (hlen : l.length = n) : (l.map index).Perm (List.range n) := by
  apply h.subperm.perm_of_length_le
  rw [List.length_map, List.length_range, hlen]

theorem Pieces.length_eq_iff_covers {n : Nat} (h : Pieces index n l) :
    l.length = n ↔ ∀ i < n, ∃ a ∈ l, index a = i := by
  constructor
  · intro hlen i hi
    exact List.mem_map.mp ((h.perm hlen).mem_iff.mpr (List.mem_range.mpr hi))
  · intro hall
    have hsub : List.range n ⊆ l.map index := by
      intro i hi
      exact List.mem_map.mpr (hall i (List.mem_range.mp hi))
    have hle := (List.nodup_range.subperm hsub).length_le
    rw [List.length_range, List.length_map] at hle
    exact Nat.le_antisymm h.length_le hle

theorem inOrder_perm (l : List α) : (inOrder index l).Perm l := List.perm_insertionSort _ l

/-- The indices of a complete collection. -/
theorem Pieces.map_index_inOrder {n : Nat} (h : Pieces index n l) (hlen : l.length = n) :
    (inOrder index l).map index = List.range n := by
  have hsorted : ((inOrder index l).map index).Pairwise (· ≤ ·) := by
    rw [inOrder, List.map_insertionSort _ (· ≤ ·) index l (fun _ _ _ _ => Iff.rfl)]
    exact List.pairwise_insertionSort _ _
  have hrange : (List.range n).Pairwise (· ≤ ·) := List.pairwise_le_range
  exact (((inOrder_perm l).map index).trans (h.perm hlen)).eq_of_pairwise' hsorted hrange

/-- The values of a complete collection. -/
theorem Pieces.map_inOrder (h : Pieces index parts.length l) (hlen : l.length = parts.length)
    (hval : ∀ a ∈ l, parts[index a]? = some (value a)) : (inOrder index l).map value = parts := by
  have hindex := h.map_index_inOrder hlen
  apply List.ext_getElem?
  intro i
  have hi : ((inOrder index l).map index)[i]? = (List.range parts.length)[i]? := by rw [hindex]
  rw [List.getElem?_map] at hi ⊢
  by_cases hlt : i < parts.length
  · rw [List.getElem?_range hlt] at hi
    obtain ⟨a, ha, rfl⟩ := Option.map_eq_some_iff.mp hi
    have hmem : a ∈ l := (inOrder_perm l).mem_iff.mp (List.mem_of_getElem? ha)
    rw [ha, Option.map_some, hval a hmem]
  · have hnone : (inOrder index l)[i]? = none := by
      apply List.getElem?_eq_none
      rw [(inOrder_perm l).length_eq]
      omega
    rw [hnone, Option.map_none, List.getElem?_eq_none (by omega)]

/-! ## Cutting -/

/-- The parts of `l` have the sizes `size i`, `size (i + 1)`, …; the last part takes what is left. -/
inductive Cut (size : Nat → Nat) : Nat → List α → List (List α) → Prop where
  | nil (i : Nat) : Cut size i [] []
  | cons {i : Nat} {l : List α} {ps : List (List α)} (hne : l ≠ []) (rest : Cut size (i + 1) (l.drop (size i)) ps) :
      Cut size i l (l.take (size i) :: ps)

section Cut
variable {size : Nat → Nat} {i : Nat} {ps : List (List α)}

theorem Cut.exists_of_pos (hpos : ∀ i, 0 < size i) (i : Nat) (l : List α) : ∃ ps, Cut size i l ps := by
  induction hn : l.length using Nat.strong_induction_on generalizing i l with
  | h n ih =>
    by_cases hne : l = []
    · exact ⟨[], hne ▸ .nil i⟩
    · have hlen : 0 < l.length := List.length_pos_iff.mpr hne
      have hsize := hpos i
      have hlt : (l.drop (size i)).length < n := by
        rw [List.length_drop]
        omega
      obtain ⟨ps, hps⟩ := ih _ hlt (i + 1) (l.drop (size i)) rfl
      exact ⟨_, .cons hne hps⟩

theorem Cut.flatten (h : Cut size i l ps) : ps.flatten = l := by
  induction h with
  | nil => rfl
  | cons hne rest ih => rw [List.flatten_cons, ih, List.take_append_drop]

theorem Cut.eq_nil_iff (h : Cut size i l ps) : ps = [] ↔ l = [] := by
  cases h with
  | nil => simp
  | cons hne rest => simp [hne]

/-- There are at most `n` parts when `n` parts have room for the list. -/
theorem Cut.length_le_iff (h : Cut size i l ps) (n : Nat) :
    ps.length ≤ n ↔ l.length ≤ ∑ j ∈ Finset.range n, size (i + j) := by
  induction h generalizing n with
  | nil => simp
  | @cons i l ps hne rest ih =>
    have hlen : 0 < l.length := List.length_pos_iff.mpr hne
    cases n with
    | zero =>
      rw [Finset.range_zero, Finset.sum_empty, List.length_cons]
      omega
    | succ n =>
      have hrest := ih n
      have hshift : ∑ j ∈ Finset.range n, size (i + (j + 1)) = ∑ j ∈ Finset.range n, size (i + 1 + j) :=
        Finset.sum_congr rfl fun j _ => by rw [Nat.add_assoc, Nat.add_comm 1 j]
      rw [List.length_drop] at hrest
      rw [Finset.sum_range_succ', hshift, List.length_cons, Nat.add_zero i]
      omega

theorem Cut.part_length_le (h : Cut size i l ps) {j : Nat} {p : List α} (hp : ps[j]? = some p) :
    p.length ≤ size (i + j) := by
  induction h generalizing j with
  | nil => cases hp
  | cons hne rest ih =>
    cases j with
    | zero =>
      cases hp
      exact List.length_take_le _ _
    | succ j =>
      have hrest := ih hp
      rwa [Nat.add_right_comm, Nat.add_assoc] at hrest

end Cut

/-! ## Contiguous parts -/

section Contiguous
variable {parts : List (List α)} {p : List α} {i j n : Nat}

/-- Where the part `i` begins in the whole. -/
def offsetOf (parts : List (List α)) (i : Nat) : Nat := (parts.take i).flatten.length

@[simp] theorem offsetOf_zero (parts : List (List α)) : offsetOf parts 0 = 0 := rfl

@[simp] theorem offsetOf_length (parts : List (List α)) : offsetOf parts parts.length = parts.flatten.length := by
  simp [offsetOf]

theorem offsetOf_succ (h : parts[i]? = some p) : offsetOf parts (i + 1) = offsetOf parts i + p.length := by
  simp [offsetOf, List.take_add_one, h]

theorem offsetOf_mono (h : i ≤ j) : offsetOf parts i ≤ offsetOf parts j := by
  unfold offsetOf
  have hsplit : parts.take j = parts.take i ++ (parts.take j).drop i := by
    have htake := List.take_append_drop i (parts.take j)
    rwa [List.take_take, Nat.min_eq_left h, eq_comm] at htake
  rw [hsplit, List.flatten_append, List.length_append]
  omega

theorem offsetOf_add_le (h : parts[i]? = some p) : offsetOf parts i + p.length ≤ parts.flatten.length := by
  obtain ⟨hlt, -⟩ := List.getElem?_eq_some_iff.mp h
  rw [← offsetOf_succ h, ← offsetOf_length]
  exact offsetOf_mono hlt

theorem offsetOf_lt (hne : ∀ p ∈ parts, p ≠ []) (hij : i < j) (hj : j ≤ parts.length) :
    offsetOf parts i < offsetOf parts j := by
  have hi : parts[i]? = some parts[i] := List.getElem?_eq_getElem (by omega)
  have hpos : 0 < parts[i].length := List.length_pos_iff.mpr (hne _ (List.getElem_mem _))
  have hle : offsetOf parts (i + 1) ≤ offsetOf parts j := offsetOf_mono hij
  rw [offsetOf_succ hi] at hle
  omega

/-- Nonempty parts begin at different positions. -/
theorem offsetOf_inj (hne : ∀ p ∈ parts, p ≠ []) (hi : i < parts.length) (hj : j < parts.length) :
    offsetOf parts i = offsetOf parts j ↔ i = j := by
  constructor
  · intro h
    by_contra hij
    rcases Nat.lt_or_gt_of_ne hij with hlt | hlt
    · have := offsetOf_lt hne hlt (by omega)
      omega
    · have := offsetOf_lt hne hlt (by omega)
      omega
  · rintro rfl
    rfl

theorem getElem?_flatten_offsetOf (h : parts[i]? = some p) {k : Nat} (hk : k < p.length) :
    parts.flatten[offsetOf parts i + k]? = p[k]? := by
  have hsplit : parts = parts.take i ++ p :: parts.drop (i + 1) := by
    obtain ⟨hlt, rfl⟩ := List.getElem?_eq_some_iff.mp h
    rw [← List.drop_eq_getElem_cons hlt, List.take_append_drop]
  have hflat : parts.flatten = (parts.take i).flatten ++ (p ++ (parts.drop (i + 1)).flatten) := by
    conv_lhs => rw [hsplit]
    simp
  rw [hflat, offsetOf, List.getElem?_append_right (Nat.le_add_right _ _), Nat.add_sub_cancel_left,
    List.getElem?_append_left hk]

/-- Every position below the begin of the part `n` lies in one of the parts before. -/
theorem exists_part {k : Nat} (h : k < offsetOf parts n) :
    ∃ i < n, offsetOf parts i ≤ k ∧ k < offsetOf parts (i + 1) := by
  induction n with
  | zero => simp at h
  | succ n ih =>
    by_cases hk : k < offsetOf parts n
    · obtain ⟨i, hi, hin⟩ := ih hk
      exact ⟨i, by omega, hin⟩
    · exact ⟨n, by omega, by omega, h⟩

/-- How long the part `i` is. -/
def lengthOf (parts : List (List α)) (i : Nat) : Nat := (parts[i]?.map List.length).getD 0

theorem sum_lengthOf_range (parts : List (List α)) :
    ∑ i ∈ Finset.range parts.length, lengthOf parts i = parts.flatten.length := by
  have hoff : ∀ n ≤ parts.length, ∑ i ∈ Finset.range n, lengthOf parts i = offsetOf parts n := by
    intro n hn
    induction n with
    | zero => simp
    | succ n ih =>
      have hget : parts[n]? = some parts[n] := List.getElem?_eq_getElem (by omega)
      rw [Finset.sum_range_succ, ih (by omega), offsetOf_succ hget, lengthOf, hget]
      rfl
  rw [hoff _ (Nat.le_refl _), offsetOf_length]

/-- **The lengths.** Distinct nonempty parts are all the parts if their lengths add up to the length of the whole. -/
theorem sum_lengths_eq_iff (hne : ∀ p ∈ parts, p ≠ []) {is : List Nat} (hnd : is.Nodup)
    (hlt : ∀ i ∈ is, i < parts.length) :
    (is.map (lengthOf parts)).sum = parts.flatten.length ↔ ∀ i < parts.length, i ∈ is := by
  have hsub : is.toFinset ⊆ Finset.range parts.length := by
    intro i hi
    exact Finset.mem_range.mpr (hlt i (List.mem_toFinset.mp hi))
  rw [← List.sum_toFinset _ hnd, ← sum_lengthOf_range]
  constructor
  · intro hsum i hi
    by_contra hnot
    have hpos : 0 < lengthOf parts i := by
      rw [lengthOf, List.getElem?_eq_getElem hi]
      exact List.length_pos_iff.mpr (hne _ (List.getElem_mem _))
    have hless := Finset.sum_lt_sum_of_subset hsub (Finset.mem_range.mpr hi) (by simpa using hnot) hpos
      (fun _ _ _ => Nat.zero_le _)
    exact absurd hsum (Nat.ne_of_lt hless)
  · intro hall
    have heq : is.toFinset = Finset.range parts.length := by
      apply Finset.Subset.antisymm hsub
      intro i hi
      exact List.mem_toFinset.mpr (hall i (Finset.mem_range.mp hi))
    rw [heq]

end Contiguous

end Qunet.Lib
