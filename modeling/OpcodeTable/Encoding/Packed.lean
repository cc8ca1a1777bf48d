import OpcodeTable.Encoding.Basic
import OpcodeTable.Text.Hex

/-!
# Packed encodings

A table row holds an encoding as a prefix byte, the opcode in hexadecimal and a flag byte.

In the prefix byte, bit 7 stands for an address-size prefix and bit 6 for an operand-size prefix;
bits 5 to 2 hold a segment number and bits 1 to 0 a repeat number. In the flag byte, bit 0 stands for
REX.W, bits 4 to 1 hold the use of the ModRM byte, bit 5 stands for a fold, bit 6 for a set W bit in
the vector group, and bit 7 for a fold of a stack register.
-/

namespace OpcodeTable

/-- Pack prefix bytes. Of several segment numbers, or several repeat numbers, the first counts. -/
def packPrefixes (prefixes : List PrefixByte) : Nat :=
  (if prefixes.contains .addressSize then 0x80 else 0) +
    (if prefixes.contains .operandSize then 0x40 else 0) +
    (prefixes.findSome? PrefixByte.segmentCode?).getD 0 * 4 +
    (prefixes.findSome? PrefixByte.repeatCode?).getD 0

namespace Encoding

/-- The prefix byte of a table row. -/
def prefixBits (encoding : Encoding) : Nat :=
  packPrefixes encoding.allPrefixes

/-- The flag byte of a table row. -/
def flagBits (encoding : Encoding) : Nat :=
  (if encoding.rexW then 0x01 else 0) +
    (encoding.modRM.map ModRM.code).getD 0 * 2 +
    (if encoding.fold.isSome then 0x20 else 0) +
    (if encoding.vector.any (fun group => group.wide == .one) then 0x40 else 0) +
    (if encoding.fold == some .stack then 0x80 else 0)

/-- The full opcode as one number, the first byte highest. -/
def opcodeValue (encoding : Encoding) : UInt64 :=
  encoding.fullOpcode.foldl (fun value byte => value <<< 8 ||| byte.toUInt64) 0

/-- The full opcode in hexadecimal. -/
def opcodeHex (encoding : Encoding) : String :=
  String.ofList (Text.hexBytes encoding.fullOpcode)

end Encoding

end OpcodeTable
