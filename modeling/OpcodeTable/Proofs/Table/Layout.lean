import OpcodeTable.Proofs.Table.Link
import OpcodeTable.Proofs.Table.RowOrder
import OpcodeTable.Table.Basic

/-!
# Laying out a table

Laying out a table fails for more than 16383 variants and for no other reason. Otherwise its rows are
the sorted variants, each with the link of its variant, beside the lookup of these rows.
-/

namespace OpcodeTable.Table

/-- The table that has given variants as its rows, in the given order. -/
def ofRows (rows : List Variant) : Table where
  rows := rows.map fun variant => ⟨variant, variant.link? (firstPositions rows)⟩
  lookup := .ofRows rows

@[simp]
theorem variants_ofRows (rows : List Variant) : (ofRows rows).variants = rows := by
  simp [variants, ofRows, Function.comp_def]

@[simp]
theorem size_ofRows (rows : List Variant) : (ofRows rows).size = rows.length := by
  simp [size, ofRows]

@[simp]
theorem lookup_ofRows (rows : List Variant) : (ofRows rows).lookup = .ofRows rows :=
  rfl

/-- The only obstacle to a table is the number of its rows. -/
theorem ofVariants_eq (variants : List Variant) :
    ofVariants variants =
      if variants.length ≤ Link.rowLimit then
        .ok (ofRows (variants.mergeSort Variant.rowLE))
      else
        .error (.tooManyRows variants.length Link.rowLimit) := by
  have sortedLength : (variants.mergeSort Variant.rowLE).length = variants.length :=
    List.length_mergeSort variants
  rw [ofVariants, Variant.sortRows_eq]
  split_ifs with fits
  · rw [← sortedLength] at fits
    simp only [rowLinks_eq_ok fits]
    rw [ofRows, List.zipWith_map_right, List.zipWith_self]
  · rw [← sortedLength] at fits ⊢
    simp only [rowLinks_eq_error (Nat.lt_of_not_le fits)]

/-- A list of more than 16383 variants is refused for its length. Every other list becomes a table
whose rows arrange the variants: they ascend by name, by the ranks of the first two operands and by the
EVEX mark, and variants that these do not tell apart keep their order. So the rows of one name stand
together, and among rows with the same name and the same first two operands those without EVEX group
come first. -/
theorem ofVariants_arranges_rows (variants : List Variant) :
    (16383 < variants.length ∧
        ofVariants variants = .error (.tooManyRows variants.length 16383)) ∨
      (variants.length ≤ 16383 ∧ ∃ table, ofVariants variants = .ok table ∧
        RowArrangement variants table.variants ∧
        (∀ first middle last : Fin table.variants.length, first ≤ middle → middle ≤ last →
          table.variants[first].name = table.variants[last].name →
            table.variants[middle].name = table.variants[first].name) ∧
        (∀ plain evex : Fin table.variants.length,
          table.variants[plain].name = table.variants[evex].name →
          table.variants[plain].operands.take 2 = table.variants[evex].operands.take 2 →
          table.variants[plain].encoding.isEvex = false →
          table.variants[evex].encoding.isEvex = true → plain < evex)) := by
  rw [ofVariants_eq]
  by_cases fits : variants.length ≤ Link.rowLimit
  · right
    have arranged := Variant.mergeSort_rowLE_arranges variants
    rw [← variants_ofRows (variants.mergeSort Variant.rowLE)] at arranged
    rw [if_pos fits]
    exact ⟨fits, _, rfl, arranged,
      fun _ _ _ firstMiddle middleLast nameEq =>
        arranged.name_eq_of_between firstMiddle middleLast nameEq,
      fun _ _ nameEq operandsEq isPlain isEvex =>
        arranged.lt_of_evex nameEq operandsEq isPlain isEvex⟩
  · left
    rw [if_neg fits]
    exact ⟨Nat.lt_of_not_le fits, rfl⟩

end OpcodeTable.Table
