import Mathlib.Order.Fin.Basic
import OpcodeTable.Proofs.Order.Keys
import OpcodeTable.Proofs.Order.Sorting

/-!
# Rows in order

Sorting variants into table rows never fails, because every operand type has a rank. What comes out has
the same variants, ascends by place, and keeps variants with the same row key in their order. Hence the
rows of one instruction name stand together, and of rows that agree in name and in the first two
operands those without EVEX group come first.
-/

namespace OpcodeTable

/-- Rows are an arrangement of variants: the same variants, ascending by place, and those with the same
row key in the same order. -/
structure RowArrangement (variants rows : List Variant) : Prop where
  perm : rows.Perm variants
  ascending : rows.Pairwise fun upper lower => upper.place ≤ lower.place
  stable : ∀ key,
    rows.filter (fun variant => RowKey.ofVariant variant = key) =
      variants.filter fun variant => RowKey.ofVariant variant = key

namespace Variant

theorem unranked?_eq_none (variants : List Variant) : unranked? variants = none := by
  apply List.find?_eq_none.mpr
  intro type _
  simp [OperandType.rank?_eq_index]

theorem sortRows_eq (variants : List Variant) :
    sortRows variants = .ok (variants.mergeSort rowLE) := by
  rw [sortRows, unranked?_eq_none]

theorem mergeSort_rowLE_arranges (variants : List Variant) :
    RowArrangement variants (variants.mergeSort rowLE) where
  perm := List.mergeSort_perm variants rowLE
  ascending := pairwise_place_mergeSort rowLE_iff variants
  stable := by
    intro key
    apply filter_mergeSort_of_pairwise rowLE_iff
    apply List.pairwise_of_forall_mem_list
    intro left leftMem right rightMem
    have leftKey := of_decide_eq_true (List.mem_filter.mp leftMem).2
    have rightKey := of_decide_eq_true (List.mem_filter.mp rightMem).2
    exact ((RowKey.ofVariant_eq_iff left right).mp (leftKey.trans rightKey.symm)).le

end Variant

namespace RowArrangement

variable {variants rows : List Variant}

theorem place_le (arrangement : RowArrangement variants rows) {upper lower : Fin rows.length}
    (above : upper ≤ lower) : rows[upper].place ≤ rows[lower].place := by
  rcases above.eq_or_lt with same | strict
  · rw [same]
  · exact List.pairwise_iff_getElem.mp arrangement.ascending upper lower upper.isLt lower.isLt strict

/-- Between two rows of one name there are only rows of this name. -/
theorem name_eq_of_between (arrangement : RowArrangement variants rows)
    {first middle last : Fin rows.length} (firstMiddle : first ≤ middle)
    (middleLast : middle ≤ last) (nameEq : rows[first].name = rows[last].name) :
    rows[middle].name = rows[first].name := by
  have lower : Text.byteValues rows[first].name ≤ Text.byteValues rows[middle].name :=
    Prod.Lex.monotone_fst _ _ (arrangement.place_le firstMiddle)
  have upper : Text.byteValues rows[middle].name ≤ Text.byteValues rows[last].name :=
    Prod.Lex.monotone_fst _ _ (arrangement.place_le middleLast)
  rw [← nameEq] at upper
  exact Text.byteValues_injective (upper.antisymm lower)

private theorem rankAt_eq_of_take_eq {left right : Variant} {count position : Nat}
    (takeEq : left.operands.take count = right.operands.take count) (bounded : position < count) :
    left.rankAt position = right.rankAt position := by
  unfold Variant.rankAt
  rw [← List.getElem?_take_of_lt bounded, takeEq, List.getElem?_take_of_lt bounded]

/-- Of two rows that agree in name and in the first two operands, the one without EVEX group stands
above the one with it. -/
theorem lt_of_evex (arrangement : RowArrangement variants rows) {plain evex : Fin rows.length}
    (nameEq : rows[plain].name = rows[evex].name)
    (operandsEq : rows[plain].operands.take 2 = rows[evex].operands.take 2)
    (isPlain : rows[plain].encoding.isEvex = false)
    (isEvex : rows[evex].encoding.isEvex = true) : plain < evex := by
  have placeLt : rows[plain].place < rows[evex].place := by
    unfold Variant.place
    rw [nameEq, rankAt_eq_of_take_eq operandsEq (by decide : 0 < 2),
      rankAt_eq_of_take_eq operandsEq (by decide : 1 < 2), isPlain, isEvex]
    simp [Prod.Lex.toLex_lt_toLex]
  by_contra notAbove
  exact absurd (arrangement.place_le (not_lt.mp notAbove)) (not_le.mpr placeLt)

end RowArrangement

end OpcodeTable
