import Mathlib.Order.Bounds.Defs
import OpcodeTable.Proofs.Table.Layout

/-!
# Rows that are in order already

A check of neighbours is enough to tell whether variants are in the order of table rows, and sorting
leaves exactly those lists of variants alone that pass the check. The rows of a table pass it, so laying
out its variants once more gives the same table.
-/

namespace OpcodeTable

namespace Variant

variable {variants : List Variant}

/-- The positions of variants that belong before the one in front of them. -/
def misplaced (variants : List Variant) : Set Nat :=
  {position | ∃ previous above below, position = previous + 1 ∧
    variants[previous]? = some above ∧ variants[position]? = some below ∧ below.place < above.place}

theorem exists_previous_of_mem_misplaced {position : Nat} (misplacedAt : position ∈ misplaced variants) :
    ∃ previous, position = previous + 1 := by
  obtain ⟨previous, _, _, positionEq, _⟩ := misplacedAt
  exact ⟨previous, positionEq⟩

theorem one_mem_misplaced_cons_iff {first second : Variant} {rest : List Variant} :
    1 ∈ misplaced (first :: second :: rest) ↔ second.place < first.place := by
  constructor
  · rintro ⟨previous, above, below, positionEq, aboveAt, belowAt, placeLt⟩
    obtain rfl : previous = 0 := by omega
    obtain rfl := Option.some.inj aboveAt
    obtain rfl := Option.some.inj belowAt
    exact placeLt
  · intro placeLt
    exact ⟨0, first, second, rfl, rfl, rfl, placeLt⟩

theorem add_two_mem_misplaced_cons_iff {first : Variant} {rest : List Variant} {position : Nat} :
    position + 2 ∈ misplaced (first :: rest) ↔ position + 1 ∈ misplaced rest := by
  constructor
  · rintro ⟨previous, above, below, positionEq, aboveAt, belowAt, placeLt⟩
    obtain rfl : previous = position + 1 := by omega
    exact ⟨position, above, below, rfl, aboveAt, belowAt, placeLt⟩
  · rintro ⟨previous, above, below, positionEq, aboveAt, belowAt, placeLt⟩
    obtain rfl : previous = position := by omega
    exact ⟨previous + 1, above, below, rfl, aboveAt, belowAt, placeLt⟩

theorem misorderedFrom?_eq_none_iff (start : Nat) (variants : List Variant) :
    misorderedFrom? start variants = none ↔
      variants.IsChain fun upper lower => upper.place ≤ lower.place := by
  fun_induction misorderedFrom? start variants with
  | case1 start first second rest ordered ih =>
      rw [ih, List.isChain_cons_cons]
      exact (and_iff_right ((rowLE_iff first second).mp ordered)).symm
  | case2 start first second rest misordered =>
      rw [List.isChain_cons_cons, ← rowLE_iff]
      simp [misordered]
  | case3 variants start short =>
      match variants with
      | [] => simp
      | [variant] => simp
      | first :: second :: rest => exact absurd rfl (short first second rest)

/-- The position that the check gives is that of the first misplaced variant. -/
theorem isLeast_of_misorderedFrom? {start position : Nat}
    (found : misorderedFrom? start variants = some position) :
    ∃ offset, position = start + offset ∧ IsLeast (misplaced variants) offset := by
  fun_induction misorderedFrom? start variants with
  | case1 start first second rest ordered ih =>
      obtain ⟨offset, positionEq, offsetMem, least⟩ := ih found
      obtain ⟨previous, rfl⟩ := exists_previous_of_mem_misplaced offsetMem
      refine ⟨previous + 2, by omega, add_two_mem_misplaced_cons_iff.mpr offsetMem, ?_⟩
      intro other otherMem
      obtain ⟨_ | earlier, rfl⟩ := exists_previous_of_mem_misplaced otherMem
      · have placeLt := one_mem_misplaced_cons_iff.mp otherMem
        exact absurd ((rowLE_iff first second).mp ordered) (not_le.mpr placeLt)
      · have offsetLe := least (add_two_mem_misplaced_cons_iff.mp otherMem)
        omega
  | case2 start first second rest misordered =>
      obtain rfl := Option.some.inj found
      have placeLt : second.place < first.place := by
        rw [← not_le, ← rowLE_iff]
        exact misordered
      refine ⟨1, rfl, one_mem_misplaced_cons_iff.mpr placeLt, ?_⟩
      intro other otherMem
      obtain ⟨previous, rfl⟩ := exists_previous_of_mem_misplaced otherMem
      omega
  | case3 variants start short => cases found

theorem misordered?_eq (variants : List Variant) :
    misordered? variants = .ok (misorderedFrom? 0 variants) := by
  unfold misordered?
  cases misorderedFrom? 0 variants with
  | none => simp only [unranked?_eq_none]
  | some position => simp only [unranked?_eq_none]

theorem mergeSort_rowLE_eq_self_iff :
    variants.mergeSort rowLE = variants ↔
      variants.Pairwise fun upper lower => upper.place ≤ lower.place := by
  constructor
  · intro sorted
    rw [← sorted]
    exact (mergeSort_rowLE_arranges variants).ascending
  · intro ascending
    apply List.mergeSort_of_pairwise
    exact ascending.imp fun placeLe => (rowLE_iff _ _).mpr placeLe

/-- Sorting leaves variants alone exactly if no neighbours are out of order. -/
theorem misorderedFrom?_eq_none_iff_mergeSort_eq_self :
    misorderedFrom? 0 variants = none ↔ variants.mergeSort rowLE = variants := by
  have : IsTrans Variant fun upper lower => upper.place ≤ lower.place :=
    ⟨fun _ _ _ upperLe lowerLe => upperLe.trans lowerLe⟩
  rw [misorderedFrom?_eq_none_iff, List.isChain_iff_pairwise, mergeSort_rowLE_eq_self_iff]

theorem mergeSort_rowLE_idem (variants : List Variant) :
    (variants.mergeSort rowLE).mergeSort rowLE = variants.mergeSort rowLE :=
  mergeSort_rowLE_eq_self_iff.mpr (mergeSort_rowLE_arranges variants).ascending

end Variant

/-- The check for order answers for every list of variants. It finds nothing exactly if sorting would
change nothing, and otherwise it finds the first variant whose row key is less than that of the variant
in front of it. Sorting a second time changes nothing, and the variants of a table, taken in the order
of its rows, give the same table with the same links and the same lookup. -/
theorem Table.ordered_rows_reproduced (variants : List Variant) :
    (∃ found, Variant.misordered? variants = .ok found ∧
      (found = none ↔ Variant.sortRows variants = .ok variants) ∧
      ∀ position, found = some position →
        IsLeast {index | ∃ previous above below, index = previous + 1 ∧
          variants[previous]? = some above ∧ variants[index]? = some below ∧
          RowKey.compare (.ofVariant below) (.ofVariant above) = .lt} position) ∧
    (∃ rows, Variant.sortRows variants = .ok rows ∧ Variant.sortRows rows = .ok rows) ∧
    ∀ table, ofVariants variants = .ok table → ofVariants table.variants = .ok table := by
  refine ⟨⟨_, Variant.misordered?_eq variants, ?_, ?_⟩, ?_, ?_⟩
  · rw [Variant.sortRows_eq, Except.ok.injEq]
    exact Variant.misorderedFrom?_eq_none_iff_mergeSort_eq_self
  · intro position found
    obtain ⟨offset, positionEq, least⟩ := Variant.isLeast_of_misorderedFrom? found
    rw [positionEq, Nat.zero_add]
    simp only [(RowKey.compare_compares _ _).eq_lt]
    exact least
  · refine ⟨_, Variant.sortRows_eq variants, ?_⟩
    rw [Variant.sortRows_eq, Variant.mergeSort_rowLE_idem]
  · intro table laidOut
    rw [ofVariants_eq] at laidOut
    split_ifs at laidOut with fits
    obtain rfl := Except.ok.inj laidOut
    rw [variants_ofRows, ofVariants_eq, Variant.mergeSort_rowLE_idem, List.length_mergeSort, if_pos fits]

end OpcodeTable
