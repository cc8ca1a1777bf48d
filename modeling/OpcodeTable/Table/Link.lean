import OpcodeTable.Table.Error
import OpcodeTable.Variant.Basic
import Std.Data.HashMap

/-!
# Links between rows

Some rows point to another row that serves the same instruction with a shorter encoding when an operand
happens to fit: a wide move of a 32-bit immediate, a shift by a count, and a multiplication by a wide
immediate. A link is packed into 16 bits, two for its context and 14 for the row, so a table can have at
most 16383 rows; the value with all bits set stands for no link.
-/

namespace OpcodeTable

/-- Why a row links to another: a move to a 64-bit register may become one to its lower half, a shift by a
count one by one, and a multiplication by a wide immediate may take a narrow one. -/
inductive LinkContext where
  | wideImmediate
  | shiftByOne
  | narrowImmediate
deriving DecidableEq, Repr

namespace LinkContext

/-- The number of a context. -/
def code : LinkContext → Nat
  | .wideImmediate => 0
  | .shiftByOne => 1
  | .narrowImmediate => 2

/-- The context with a number. -/
def ofCode? : Nat → Option LinkContext
  | 0 => some .wideImmediate
  | 1 => some .shiftByOne
  | 2 => some .narrowImmediate
  | _ => none

end LinkContext

structure Link where
  context : LinkContext
  row : Nat
deriving DecidableEq, Repr

namespace Link

/-- The most rows that a table may have. -/
def rowLimit : Nat := 0x3FFF

/-- One more than the largest number that the row field holds. -/
def rowSpan : Nat := 0x4000

/-- The packed value that stands for no link. -/
def absent : Nat := 0xFFFF

/-- Pack a link; the row field keeps the low 14 bits of the row. -/
def pack (link : Link) : Nat :=
  link.context.code * rowSpan + link.row % rowSpan

/-- Pack a link that may be missing. -/
def packOption (link : Option Link) : Nat :=
  (link.map pack).getD absent

def unpack? (packed : Nat) : Option Link :=
  if packed = absent then
    none
  else
    (LinkContext.ofCode? (packed / rowSpan)).map fun context => ⟨context, packed % rowSpan⟩

end Link

/-- The instructions that shift or rotate by a count. -/
def shiftNames : List String :=
  ["rol", "ror", "rcl", "rcr", "shl", "shr", "sal", "sar"]

/-- The key that a variant should link to, with the reason. -/
def Variant.linkTarget? (variant : Variant) : Option (LinkContext × VariantKey) :=
  match variant.operands with
  | [first, second] =>
      if variant.name = "mov" ∧ first = .general .qword ∧ second = .immediate .dword then
        some (.wideImmediate, ⟨variant.name, [.general .dword, .immediate .dword]⟩)
      else if shiftNames.contains variant.name ∧ second ≠ .one then
        some (.shiftByOne, ⟨variant.name, [first, .one]⟩)
      else
        none
  | [first, second, third] =>
      if variant.name = "imul" ∧ (third = .immediate .word ∨ third = .immediate .dword) then
        some (.narrowImmediate, ⟨variant.name, [first, second, .immediate .byte]⟩)
      else
        none
  | _ => none

/-- The first position of each key in a list of variants. -/
def firstPositions (rows : List Variant) : Std.HashMap VariantKey Nat :=
  rows.zipIdx.foldl (fun positions (variant, row) => positions.insertIfNew variant.key row) {}

/-- The link of a variant, given where keys are. -/
def Variant.link? (positions : Std.HashMap VariantKey Nat) (variant : Variant) : Option Link :=
  match variant.linkTarget? with
  | none => none
  | some (context, key) => positions[key]?.map fun row => ⟨context, row⟩

/-- The links of rows, counted from a starting row. Each must stay inside the table. -/
def linksFrom (positions : Std.HashMap VariantKey Nat) (rows : Nat) :
    Nat → List Variant → Except TableError (List (Option Link))
  | _, [] => .ok []
  | row, variant :: rest => do
      let link := variant.link? positions
      match link with
      | some ⟨_, target⟩ =>
          if target < rows then
            return link :: (← linksFrom positions rows (row + 1) rest)
          else
            throw (.linkOutOfBounds row target rows)
      | none => return link :: (← linksFrom positions rows (row + 1) rest)

/-- The link of every row of a table. -/
def rowLinks (rows : List Variant) : Except TableError (List (Option Link)) :=
  if rows.length > Link.rowLimit then
    .error (.tooManyRows rows.length Link.rowLimit)
  else
    linksFrom (firstPositions rows) rows.length 0 rows

end OpcodeTable
