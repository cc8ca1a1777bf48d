import OpcodeTable.Operand.Name
import OpcodeTable.Table.Error
import OpcodeTable.Variant.Basic

/-!
# The order of table rows

Rows are ordered by instruction name, then by the ranks of the first and of the second operand, where a
missing operand comes before any other; EVEX forms come after the others. Rows that these do not tell
apart keep their order.
-/

namespace OpcodeTable

/-- What decides where a row stands: the name, the ranks of its first two operands, and an EVEX group. -/
structure RowKey where
  name : String
  first : Option Nat
  second : Option Nat
  evex : Bool
deriving DecidableEq, Repr

def compareNat (left right : Nat) : Ordering :=
  if left < right then .lt else if right < left then .gt else .eq

/-- Compare ranks; a missing one comes first. -/
def compareRank : Option Nat → Option Nat → Ordering
  | none, none => .eq
  | none, some _ => .lt
  | some _, none => .gt
  | some left, some right => compareNat left right

/-- Compare truth values; false comes first. -/
def compareBool : Bool → Bool → Ordering
  | false, true => .lt
  | true, false => .gt
  | _, _ => .eq

namespace RowKey

/-- Compare row keys part by part. -/
def compare (left right : RowKey) : Ordering :=
  (Text.compare left.name right.name).then <|
    (compareRank left.first right.first).then <|
      (compareRank left.second right.second).then <|
        compareBool left.evex right.evex

def ofVariant (variant : Variant) : RowKey where
  name := variant.name
  first := variant.operands[0]?.bind OperandType.rank?
  second := variant.operands[1]?.bind OperandType.rank?
  evex := variant.encoding.isEvex

end RowKey

namespace Variant

/-- The row of the left variant may stand before the row of the right one. -/
def rowLE (left right : Variant) : Bool :=
  (RowKey.compare (.ofVariant left) (.ofVariant right)).isLE

/-- The first operand type without a rank, if there is one. -/
def unranked? (variants : List Variant) : Option OperandType :=
  (variants.flatMap Variant.operands).find? fun type => type.rank?.isNone

/-- Variants in the order of table rows. Every operand must have a rank. -/
def sortRows (variants : List Variant) : Except TableError (List Variant) :=
  match unranked? variants with
  | some type => .error (.unrankedOperand type.name)
  | none => .ok (variants.mergeSort rowLE)

/-- The position of the first variant that belongs before the one in front of it, counted from a
starting position. -/
def misorderedFrom? (position : Nat) : List Variant → Option Nat
  | first :: second :: rest =>
      if rowLE first second then misorderedFrom? (position + 1) (second :: rest) else some (position + 1)
  | _ => none

/-- The position of the first variant that belongs before the one in front of it. Every operand up to
there must have a rank. -/
def misordered? (variants : List Variant) : Except TableError (Option Nat) :=
  match misorderedFrom? 0 variants with
  | none =>
      match unranked? variants with
      | some type => .error (.unrankedOperand type.name)
      | none => .ok none
  | some position =>
      match unranked? (variants.take (position + 1)) with
      | some type => .error (.unrankedOperand type.name)
      | none => .ok (some position)

end Variant

end OpcodeTable
