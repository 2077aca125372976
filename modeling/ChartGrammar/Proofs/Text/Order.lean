import Mathlib.Data.List.Sort

/-! Items in the order of their names. Sorting by names gives an ascending order, and a strict one if all names differ.
Of lists in strict order, one that has no other members than another is a part of it, so that the members alone make the
list. -/

namespace ChartGrammar

variable {α : Type} {name : α → String} {xs ys : List α}

theorem pairwise_le_mergeSort (name : α → String) (xs : List α) :
    (xs.mergeSort fun a b => decide (name a ≤ name b)).Pairwise fun a b => name a ≤ name b := by
  have hsorted : (xs.mergeSort fun a b => decide (name a ≤ name b)).Pairwise fun a b =>
      decide (name a ≤ name b) = true := by
    refine List.pairwise_mergeSort (fun a b c hab hbc => ?_) (fun a b => ?_) xs
    · exact decide_eq_true (String.le_trans (of_decide_eq_true hab) (of_decide_eq_true hbc))
    · simpa using String.le_total (name a) (name b)
  exact hsorted.imp of_decide_eq_true

/-- Where no two items share a name, sorting puts them in strict order. -/
theorem pairwise_lt_mergeSort (hnames : (xs.map name).Nodup) :
    (xs.mergeSort fun a b => decide (name a ≤ name b)).Pairwise fun a b => name a < name b := by
  have hdistinct : (xs.mergeSort fun a b => decide (name a ≤ name b)).Pairwise fun a b => name a ≠ name b := by
    apply List.pairwise_map.mp
    exact ((List.mergeSort_perm xs _).map name).nodup_iff.mpr hnames
  refine List.Pairwise.imp₂ (fun a b hle hne => ?_) (pairwise_le_mergeSort name xs) hdistinct
  by_contra hlt
  exact hne (String.le_antisymm hle (String.not_lt.mp hlt))

theorem sublist_of_pairwise_lt (hxs : xs.Pairwise fun a b => name a < name b)
    (hys : ys.Pairwise fun a b => name a < name b) (hsub : xs ⊆ ys) : xs.Sublist ys := by
  have hantisymm : Std.Antisymm fun a b : α => name a < name b :=
    ⟨fun a b hab hba => absurd hba (String.lt_asymm hab)⟩
  have hnodup : xs.Nodup := by
    refine List.Pairwise.imp ?_ hxs
    rintro a b hlt rfl
    exact String.lt_irrefl _ hlt
  exact List.sublist_of_subperm_of_pairwise (List.subperm_of_subset hnodup hsub) hxs hys

/-- Two lists in strict order with the same members are one. -/
theorem eq_of_pairwise_lt (hxs : xs.Pairwise fun a b => name a < name b)
    (hys : ys.Pairwise fun a b => name a < name b) (hmem : ∀ a, a ∈ xs ↔ a ∈ ys) : xs = ys := by
  apply List.Sublist.antisymm
  · exact sublist_of_pairwise_lt hxs hys fun a ha => (hmem a).mp ha
  · exact sublist_of_pairwise_lt hys hxs fun a ha => (hmem a).mpr ha

end ChartGrammar
