import OpcodeTable.Encoding.Basic
import OpcodeTable.Operand.Basic
import OpcodeTable.Text.Order

/-!
# Variants

A variant is one instruction name with one tuple of operand types and the encoding that serves them.
Name and operand types together are its key.
-/

namespace OpcodeTable

/-- An instruction name with a tuple of operand types. -/
structure VariantKey where
  name : String
  operands : List OperandType
deriving DecidableEq, Hashable, Repr

/-- An instruction name with a tuple of operand types and an encoding for them. -/
structure Variant where
  name : String
  operands : List OperandType
  encoding : Encoding
deriving DecidableEq, Repr

namespace Variant

/-- The name with the operand types. -/
def key (variant : Variant) : VariantKey :=
  ⟨variant.name, variant.operands⟩

def size (variant : Variant) : Nat :=
  variant.encoding.size

end Variant

/-- Compare tuples of operand types position by position; a tuple comes before all its
continuations. -/
def compareOperands : List OperandType → List OperandType → Ordering
  | [], [] => .eq
  | [], _ :: _ => .lt
  | _ :: _, [] => .gt
  | left :: leftRest, right :: rightRest =>
      if left.index < right.index then
        .lt
      else if right.index < left.index then
        .gt
      else
        compareOperands leftRest rightRest

/-- Compare keys by name, then by operand types. -/
def VariantKey.compare (left right : VariantKey) : Ordering :=
  (Text.compare left.name right.name).then (compareOperands left.operands right.operands)

end OpcodeTable
