import Mathlib.Data.Prod.Lex
import Mathlib.Order.BooleanAlgebra.Basic
import Mathlib.Order.WithBot
import OpcodeTable.Proofs.Order.Bytes
import OpcodeTable.Table.RowOrder

/-!
# The orders of variant keys and of table rows

Keys and rows are compared part by part. Each comparison is that of a lexicographic product of linear
orders: bytes of the name and numbers of the operand types for keys; bytes of the name, ranks of the
first two operands and the EVEX mark for rows. The element of this product that a key or a row is
compared by is called its place.
-/

namespace OpcodeTable

/-- Comparing one part after the other compares pairs in lexicographic order. -/
theorem compares_then {First Second : Type*} [LT First] [LT Second] {first second : Ordering}
    {leftFirst rightFirst : First} {leftSecond rightSecond : Second}
    (firstCompares : first.Compares leftFirst rightFirst)
    (secondCompares : second.Compares leftSecond rightSecond) :
    (first.then second).Compares (toLex (leftFirst, leftSecond))
      (toLex (rightFirst, rightSecond)) := by
  cases first with
  | lt => exact Prod.Lex.toLex_lt_toLex.mpr (Or.inl firstCompares)
  | gt => exact Prod.Lex.toLex_lt_toLex.mpr (Or.inl firstCompares)
  | eq =>
      have firstEq : leftFirst = rightFirst := firstCompares
      subst firstEq
      cases second with
      | lt => exact Prod.Lex.toLex_lt_toLex.mpr (Or.inr ⟨rfl, secondCompares⟩)
      | gt => exact Prod.Lex.toLex_lt_toLex.mpr (Or.inr ⟨rfl, secondCompares⟩)
      | eq =>
          have secondEq : leftSecond = rightSecond := secondCompares
          exact congrArg (fun part => toLex (leftFirst, part)) secondEq

theorem isLE_iff_of_compares {Place : Type*} [LinearOrder Place] {order : Ordering}
    {left right : Place} (compares : order.Compares left right) :
    order.isLE = true ↔ left ≤ right := by
  rw [← compares.ne_gt]
  cases order <;> simp

theorem compareNat_compares (left right : Nat) :
    (compareNat left right).Compares left right := by
  unfold compareNat
  split_ifs with before after
  · exact before
  · exact after
  · exact Nat.le_antisymm (Nat.not_lt.mp after) (Nat.not_lt.mp before)

/-- A rank as an element of the order in which a missing one comes before all others. -/
def rankPlace : Option Nat → WithBot Nat
  | none => ⊥
  | some rank => WithBot.some rank

theorem rankPlace_injective : Function.Injective rankPlace := by
  intro left right placeEq
  match left, right with
  | none, none => rfl
  | none, some right => exact absurd placeEq WithBot.bot_ne_coe
  | some left, none => exact absurd placeEq WithBot.coe_ne_bot
  | some left, some right => rw [WithBot.coe_injective placeEq]

theorem compareRank_compares (left right : Option Nat) :
    (compareRank left right).Compares (rankPlace left) (rankPlace right) := by
  match left, right with
  | none, none => rfl
  | none, some right => exact WithBot.bot_lt_coe right
  | some left, none => exact WithBot.bot_lt_coe left
  | some left, some right =>
      have compares := compareNat_compares left right
      simp only [compareRank, rankPlace]
      cases order : compareNat left right with
      | lt => exact WithBot.coe_lt_coe.mpr (compares.eq_lt.mp order)
      | eq => exact congrArg WithBot.some (compares.eq_eq.mp order)
      | gt => exact WithBot.coe_lt_coe.mpr (compares.eq_gt.mp order)

theorem compareBool_compares (left right : Bool) :
    (compareBool left right).Compares left right := by
  cases left <;> cases right
  · rfl
  · exact Bool.false_lt_true
  · exact Bool.false_lt_true
  · rfl

namespace OperandType

theorem mem_all (type : OperandType) : type ∈ all := by
  cases type with
  | fixed register => cases register <;> decide
  | general width => cases width <;> decide
  | stack => decide
  | one => decide
  | immediate width => cases width <;> decide
  | segment => decide
  | control => decide
  | debug => decide
  | memory size => cases size <;> decide
  | broadcast element => cases element <;> decide
  | vectorIndexed index length => cases index <;> cases length <;> decide
  | mmx => decide
  | vector length masking =>
      rcases masking with _ | masking
      · cases length <;> decide
      · cases length <;> cases masking <;> decide
  | mask => decide
  | maskedMask => decide
  | relative reach => cases reach <;> decide
  | offset width => cases width <;> decide

theorem index_injective : Function.Injective index := by
  intro left right indexEq
  exact (List.idxOf_inj (mem_all left)).mp indexEq

/-- The row order and the fixed order of the types are the same. -/
theorem rankOrder_eq_all : rankOrder = all := by
  decide

/-- Every operand type has a rank, which is its position in the fixed order. -/
theorem rank?_eq_index (type : OperandType) : type.rank? = some type.index := by
  have inBounds : type.index < all.length := List.idxOf_lt_length_of_mem (mem_all type)
  rw [rank?, rankOrder_eq_all]
  exact List.findIdx?_eq_some_iff_findIdx_eq.mpr ⟨inBounds, rfl⟩

end OperandType

theorem compareOperands_compares (left right : List OperandType) :
    (compareOperands left right).Compares (left.map OperandType.index)
      (right.map OperandType.index) := by
  induction left generalizing right with
  | nil =>
      cases right with
      | nil => rfl
      | cons rightHead rightTail => exact List.nil_lt_cons _ _
  | cons leftHead leftTail ih =>
      cases right with
      | nil => exact List.nil_lt_cons _ _
      | cons rightHead rightTail =>
          simp only [compareOperands, List.map_cons]
          split_ifs with before after
          · exact List.cons_lt_cons_iff.mpr (Or.inl before)
          · exact List.cons_lt_cons_iff.mpr (Or.inl after)
          · have same : leftHead.index = rightHead.index := by omega
            rw [same]
            exact compares_append_left [rightHead.index] (ih rightTail)

/-- Where a key belongs among all keys. -/
def VariantKey.place (key : VariantKey) : List Nat ×ₗ List Nat :=
  toLex (Text.byteValues key.name, key.operands.map OperandType.index)

namespace VariantKey

theorem compare_compares (left right : VariantKey) :
    (compare left right).Compares left.place right.place :=
  compares_then (Text.compare_compares left.name right.name)
    (compareOperands_compares left.operands right.operands)

theorem place_injective : Function.Injective place := by
  intro left right placeEq
  have parts := Prod.mk.inj (toLex.injective placeEq)
  have nameEq : left.name = right.name := Text.byteValues_injective parts.1
  have operandsEq : left.operands = right.operands :=
    List.map_injective_iff.mpr OperandType.index_injective parts.2
  cases left
  cases right
  simp_all

theorem compare_eq_eq_iff (left right : VariantKey) : compare left right = .eq ↔ left = right := by
  rw [(compare_compares left right).eq_eq, place_injective.eq_iff]

end VariantKey

namespace Variant

/-- The rank of the operand at a position, if there is one. -/
def rankAt (variant : Variant) (position : Nat) : Option Nat :=
  variant.operands[position]?.map OperandType.index

/-- Where the row of a variant belongs among all rows: by the bytes of the name, then by the ranks of
the first two operands, a missing one before all others, and last by the EVEX mark. -/
def place (variant : Variant) : List Nat ×ₗ WithBot Nat ×ₗ WithBot Nat ×ₗ Bool :=
  toLex (Text.byteValues variant.name,
    toLex (rankPlace (variant.rankAt 0),
      toLex (rankPlace (variant.rankAt 1), variant.encoding.isEvex)))

end Variant

namespace RowKey

private theorem bind_rank?_eq (types : List OperandType) (position : Nat) :
    types[position]?.bind OperandType.rank? = types[position]?.map OperandType.index := by
  cases types[position]? with
  | none => rfl
  | some type => exact OperandType.rank?_eq_index type

theorem ofVariant_eq (variant : Variant) :
    ofVariant variant =
      ⟨variant.name, variant.rankAt 0, variant.rankAt 1, variant.encoding.isEvex⟩ := by
  unfold ofVariant
  rw [bind_rank?_eq, bind_rank?_eq]
  rfl

theorem compare_compares (left right : Variant) :
    (compare (ofVariant left) (ofVariant right)).Compares left.place right.place := by
  rw [ofVariant_eq, ofVariant_eq]
  exact compares_then (Text.compare_compares left.name right.name)
    (compares_then (compareRank_compares (left.rankAt 0) (right.rankAt 0))
      (compares_then (compareRank_compares (left.rankAt 1) (right.rankAt 1))
        (compareBool_compares left.encoding.isEvex right.encoding.isEvex)))

/-- Variants with the same row key are those with the same place. -/
theorem ofVariant_eq_iff (left right : Variant) :
    ofVariant left = ofVariant right ↔ left.place = right.place := by
  rw [ofVariant_eq, ofVariant_eq, RowKey.mk.injEq, Variant.place, Variant.place]
  simp only [EmbeddingLike.apply_eq_iff_eq, Prod.mk.injEq, Text.byteValues_injective.eq_iff,
    rankPlace_injective.eq_iff]

end RowKey

theorem Variant.rowLE_iff (left right : Variant) :
    rowLE left right = true ↔ left.place ≤ right.place :=
  isLE_iff_of_compares (RowKey.compare_compares left right)

end OpcodeTable
