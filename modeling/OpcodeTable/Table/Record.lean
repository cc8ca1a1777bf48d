import OpcodeTable.Encoding.Packed
import OpcodeTable.Json.Printer
import OpcodeTable.Json.Reader
import OpcodeTable.Operand.Name
import OpcodeTable.Table.Basic

/-!
# Table records

A table can also be written as a JSON list with one record for each row, which spells out the fields
that a table line packs.
-/

namespace OpcodeTable

/-- The fields of a row, spelled out. Bytes are in hexadecimal, and the prefix byte of a vector group comes
last. -/
structure RowRecord where
  name : String
  operands : List String
  scheme : String
  opcode : String
  prefixes : List String
  rexW : Bool
  modRM : String
  fold : String
  size : UInt32
deriving DecidableEq, Repr

namespace RowRecord

/-- The fields of a variant, spelled out. -/
def ofVariant (variant : Variant) : RowRecord :=
  let encoding := variant.encoding
  { name := variant.name
    operands := variant.operands.map OperandType.name
    scheme := encoding.scheme
    opcode := encoding.opcodeHex
    prefixes := encoding.allPrefixes.map fun byte => String.ofList (Text.hexByte byte.byte)
    rexW := encoding.rexW
    modRM := (encoding.modRM.map ModRM.name).getD ""
    fold := (encoding.fold.map Fold.name).getD ""
    size := UInt32.ofNat encoding.size }

/-- The record as a JSON value. -/
def toJson (record : RowRecord) : Json :=
  let text := fun (value : String) => Json.text (some value)
  .object
    [(some "name", text record.name), (some "operands", .array (record.operands.map text)),
      (some "enc", text record.scheme), (some "opcode", text record.opcode),
      (some "prefix", .array (record.prefixes.map text)), (some "rexw", .bool record.rexW),
      (some "rm", text record.modRM), (some "ri", text record.fold),
      (some "size", .natural record.size.toNat)]

def fieldNames : List String :=
  ["name", "operands", "enc", "opcode", "prefix", "rexw", "rm", "ri", "size"]

/-- The sizes of records lie below this number. -/
def sizeBound : Nat := UInt32.size

/-- Read a record from a JSON value. Keys that are no fields do not matter. -/
def ofJson? (value : Json) : Option RowRecord := do
  match ← value.fields? .ignore fieldNames with
  | [name, operands, scheme, opcode, prefixes, rexW, modRM, fold, size] =>
      return {
        name := ← name.bind Json.text?
        operands := ← operands.bind (Json.arrayOf? Json.text?)
        scheme := ← scheme.bind Json.text?
        opcode := ← opcode.bind Json.text?
        prefixes := ← prefixes.bind (Json.arrayOf? Json.text?)
        rexW := ← rexW.bind Json.bool?
        modRM := ← modRM.bind Json.text?
        fold := ← fold.bind Json.text?
        size := UInt32.ofNat (← size.bind (Json.natural? sizeBound)) }
  | _ => none

/-- Read a record from a JSON text. -/
def parse? (text : String) : Option RowRecord :=
  (Json.parse? text).bind ofJson?

/-- The record on one line. -/
def compact (record : RowRecord) : String :=
  record.toJson.compact

/-- Read a list of records from a JSON text. -/
def parseList? (text : String) : Option (List RowRecord) :=
  (Json.parse? text).bind (Json.arrayOf? ofJson?)

end RowRecord

/-- The records of all rows, over several lines. -/
def Table.recordsText (table : Table) : String :=
  (Json.array (table.variants.map fun variant => (RowRecord.ofVariant variant).toJson)).pretty 0 ++ "\n"

end OpcodeTable
