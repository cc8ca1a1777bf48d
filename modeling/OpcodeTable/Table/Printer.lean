import OpcodeTable.Encoding.Packed
import OpcodeTable.Operand.Name
import OpcodeTable.Table.Basic
import OpcodeTable.Text.Hex

/-!
# Table texts

A table is written as one line for each row and its lookup as one line for each key.
-/

namespace OpcodeTable

/-- A number as a hexadecimal constant of the given width. -/
def hexConstant (width value : Nat) : String :=
  "0x" ++ String.ofList (Text.hexFixed width value)

/-- The line of a row: name, scheme, prefix byte, opcode, flag byte, packed link and operands. -/
def TableRow.line (row : TableRow) : String :=
  let variant := row.variant
  let encoding := variant.encoding
  let fields :=
    [variant.name, "ENC_" ++ encoding.scheme, hexConstant 2 encoding.prefixBits,
      "0x" ++ encoding.opcodeHex, hexConstant 2 encoding.flagBits, hexConstant 4 row.packedLink,
      "OPS_" ++ toString variant.operands.length]
  "inst(" ++ ", ".intercalate (fields ++ variant.operands.map OperandType.constantName) ++ ")"

/-- The line of a lookup entry: row, name and operands. -/
def LookupEntry.line (entry : LookupEntry) : String :=
  let fields := [toString entry.row, entry.key.name]
  "shape(" ++ ", ".intercalate (fields ++ entry.key.operands.map OperandType.constantName) ++ ")"

/-- Lines with a line feed behind each. -/
def linesText (lines : List String) : String :=
  String.join (lines.map fun line => line ++ "\n")

namespace Table

def text (table : Table) : String :=
  linesText (table.rows.map TableRow.line)

def lookupText (table : Table) : String :=
  linesText (table.lookup.entries.toList.map LookupEntry.line)

end Table

end OpcodeTable
