import Mathlib.Order.Lattice

/-!
# Sorting by a place in a linear order

A comparison that goes by the places of elements in a linear order sorts a list by these places. The
sort is stable: elements that are already in order among themselves keep their order, so sorting does
not change the sublist of the elements with one given property if that sublist is in order.
-/

namespace OpcodeTable

variable {Element Place : Type*} [LinearOrder Place] {le : Element → Element → Bool}
  {place : Element → Place}

private theorem le_trans_of_place
    (leIff : ∀ left right, le left right = true ↔ place left ≤ place right)
    (first second third : Element) (firstSecond : le first second = true)
    (secondThird : le second third = true) :
    le first third = true := by
  rw [leIff] at *
  exact firstSecond.trans secondThird

private theorem le_total_of_place
    (leIff : ∀ left right, le left right = true ↔ place left ≤ place right)
    (left right : Element) :
    (le left right || le right left) = true := by
  rw [Bool.or_eq_true, leIff, leIff]
  exact le_total (place left) (place right)

theorem pairwise_place_mergeSort
    (leIff : ∀ left right, le left right = true ↔ place left ≤ place right)
    (elements : List Element) :
    (elements.mergeSort le).Pairwise fun left right => place left ≤ place right := by
  have sorted :=
    List.pairwise_mergeSort (le_trans_of_place leIff) (le_total_of_place leIff) elements
  exact sorted.imp fun ordered => (leIff _ _).mp ordered

/-- Sorting leaves a selection of elements alone that is in order already. -/
theorem filter_mergeSort_of_pairwise
    (leIff : ∀ left right, le left right = true ↔ place left ≤ place right)
    (elements : List Element) (selected : Element → Bool)
    (ordered : (elements.filter selected).Pairwise fun left right => place left ≤ place right) :
    (elements.mergeSort le).filter selected = elements.filter selected := by
  have inOrder : (elements.filter selected).Pairwise fun left right => le left right = true :=
    ordered.imp fun placed => (leIff _ _).mpr placed
  have kept : (elements.filter selected).Sublist (elements.mergeSort le) :=
    List.sublist_mergeSort (le_trans_of_place leIff) (le_total_of_place leIff) inOrder
      List.filter_sublist
  have keptSelected :
      (elements.filter selected).Sublist ((elements.mergeSort le).filter selected) := by
    simpa only [List.filter_filter, Bool.and_self] using kept.filter selected
  have sameLength :
      ((elements.mergeSort le).filter selected).length = (elements.filter selected).length :=
    ((List.mergeSort_perm elements le).filter selected).length_eq
  exact (keptSelected.eq_of_length sameLength.symm).symm

end OpcodeTable
