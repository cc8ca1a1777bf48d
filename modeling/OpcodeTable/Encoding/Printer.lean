import OpcodeTable.Encoding.Basic
import OpcodeTable.Text.Hex

/-!
# Encoding texts

An encoding is written as words: prefix bytes, `REX.W`, the family and map of the vector group, opcode
bytes with the fold on the last one, the use of the ModRM byte, and immediates. The scheme and the
other fields of a vector group are left out.
-/

namespace OpcodeTable.Encoding

/-- The opcode bytes as words; a fold stands on the last of them. -/
def opcodeWords (fold : Option Fold) : List UInt8 → List String
  | [] => []
  | [byte] =>
      match fold with
      | none => [String.ofList (Text.hexByte byte)]
      | some fold => [String.ofList (Text.hexByte byte) ++ "+" ++ fold.name]
  | byte :: rest => String.ofList (Text.hexByte byte) :: opcodeWords fold rest

/-- The family and map of a vector group as one word. -/
def groupWord (group : VectorGroup) : String :=
  group.family.name ++ "." ++ String.ofList (Text.hexBytes group.map.escape)

def displayWords (encoding : Encoding) : List String :=
  encoding.prefixes.members.map (fun byte => String.ofList (Text.hexByte byte.byte)) ++
    (if encoding.rexW then ["REX.W"] else []) ++
    (encoding.vector.map groupWord).toList ++
    opcodeWords encoding.fold encoding.opcode ++
    (encoding.modRM.map fun use => "/" ++ use.name).toList ++
    encoding.immediates.map ImmediateMarker.name

/-- The text of an encoding. -/
def display (encoding : Encoding) : String :=
  " ".intercalate encoding.displayWords

end OpcodeTable.Encoding
