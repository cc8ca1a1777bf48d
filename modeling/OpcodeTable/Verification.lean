import OpcodeTable.Encoding.Packed
import OpcodeTable.Variant.Basic

/-!
# Verification of assembled bytes

Assembled bytes are decoded and what the decoder sees is compared with the row: the bytes must be one
instruction of the row's kind, opcode map, opcode and ModRM digit, and carry a REX.W prefix if the row
has one. A leading `wait` instruction counts as part of a row whose opcode opens with its byte.
-/

namespace OpcodeTable

/-- The kinds of instruction encodings that a decoder tells apart. -/
inductive EncodingKind where
  | legacy | vex | evex | xop | threeDNow
deriving DecidableEq, Repr

def EncodingKind.name : EncodingKind → String
  | .legacy => "Legacy"
  | .vex => "VEX"
  | .evex => "EVEX"
  | .xop => "XOP"
  | .threeDNow => "D3NOW"

/-- The opcode maps that a decoder tells apart. -/
inductive DecodedMap where
  | normal | map0F | map0F38 | map0F3A | map5 | map6 | map8 | map9 | map10
deriving DecidableEq, Repr

def DecodedMap.name : DecodedMap → String
  | .normal => "Normal"
  | .map0F => "T0F"
  | .map0F38 => "T0F38"
  | .map0F3A => "T0F3A"
  | .map5 => "MAP5"
  | .map6 => "MAP6"
  | .map8 => "MAP8"
  | .map9 => "MAP9"
  | .map10 => "MAP10"

/-- What the decoder tells about an instruction. The opcode is the one inside its map, and the digit is that
of the ModRM byte, where it tells instructions apart. -/
structure DecodedInstruction where
  length : Nat
  isWait : Bool
  isInvalid : Bool
  kind : EncodingKind
  map : DecodedMap
  opcode : Nat
  digit : Option Nat
deriving DecidableEq, Repr

/-- What is seen in bytes: the first instruction, and if that is a `wait` instruction with bytes behind
it, the second. -/
abbrev Decoder := List UInt8 → List DecodedInstruction

/-- How bytes differ from a row. -/
inductive Mismatch where
  | undecodable (bytes : List UInt8)
  | length (decoded available : Nat)
  | kind (found expected : EncodingKind)
  | map (found expected : DecodedMap)
  | opcode (found : UInt8) (expected : String)
  | digit (found expected : Nat)
  | missingRexW
deriving DecidableEq, Repr

/-- The text that reports a difference. -/
def Mismatch.message : Mismatch → String
  | .undecodable bytes =>
      "[" ++ ", ".intercalate (bytes.map fun byte => String.ofList (Text.hexByte byte)) ++
        "] does not decode"
  | .length decoded available =>
      "decoded " ++ toString decoded ++ " of " ++ toString available ++ " bytes"
  | .kind found expected => "encoded as " ++ found.name ++ ", expected " ++ expected.name
  | .map found expected => "opcode map " ++ found.name ++ ", expected " ++ expected.name
  | .opcode found expected => "opcode " ++ String.ofList (Text.hexByte found) ++ " not in " ++ expected
  | .digit found expected => "ModRM digit /" ++ toString found ++ ", expected /" ++ toString expected
  | .missingRexW => "missing REX.W"

namespace Encoding

/-- The kind that a decoder should see. -/
def expectedKind (encoding : Encoding) : EncodingKind :=
  match encoding.vector.map VectorGroup.family with
  | none => .legacy
  | some .vex => .vex
  | some .evex => .evex
  | some .xop => .xop

/-- The map that a decoder should see. Without a vector group the opcode bytes open with it. -/
def expectedMap (encoding : Encoding) : DecodedMap :=
  match encoding.vector.map VectorGroup.map with
  | some .map0F => .map0F
  | some .map0F38 => .map0F38
  | some .map0F3A => .map0F3A
  | some .map5 => .map5
  | some .map6 => .map6
  | some .xop8 => .map8
  | some .xop9 => .map9
  | some .xopA => .map10
  | none =>
      match encoding.opcode with
      | 0x0F :: 0x38 :: _ => .map0F38
      | 0x0F :: 0x3A :: _ => .map0F3A
      | 0x0F :: _ => .map0F
      | _ => .normal

/-- The instruction to compare with the row, and the number of bytes up to its end. -/
def seenInstruction? (encoding : Encoding) :
    List DecodedInstruction → Option (DecodedInstruction × Nat)
  | [] => none
  | [first] => some (first, first.length)
  | first :: second :: _ =>
      if first.isWait && encoding.opcode.head? == some 0x9B then
        some (second, first.length + second.length)
      else
        some (first, first.length)

/-- The last opcode byte is the given one, up to the number that a fold adds. -/
def endsWith (encoding : Encoding) (byte : UInt8) : Bool :=
  encoding.opcode.getLast? == some byte ||
    (encoding.fold.isSome && encoding.opcode.getLast? == some (byte &&& 0xF8))

/-- The first byte that is no prefix byte is a REX prefix with the W bit. -/
def hasRexW (bytes : List UInt8) : Bool :=
  (bytes.find? fun byte => (PrefixByte.ofByte? byte).isNone).any fun byte => 0x48 ≤ byte && byte ≤ 0x4F

/-- Compare what a decoder sees in bytes with an encoding. -/
def verify (encoding : Encoding) (bytes : List UInt8) (seen : List DecodedInstruction) :
    Except Mismatch Unit :=
  match encoding.seenInstruction? seen with
  | none => .error (.undecodable bytes)
  | some (instruction, consumed) => do
      if instruction.isInvalid then
        throw (.undecodable bytes)
      if consumed ≠ bytes.length then
        throw (.length consumed bytes.length)
      if instruction.kind ≠ encoding.expectedKind then
        throw (.kind instruction.kind encoding.expectedKind)
      if instruction.map ≠ encoding.expectedMap then
        throw (.map instruction.map encoding.expectedMap)
      let found := UInt8.ofNat (instruction.opcode % 256)
      if !encoding.endsWith found then
        throw (.opcode found encoding.opcodeHex)
      match encoding.modRM, instruction.digit with
      | some (.digit expected), some digit =>
          if digit ≠ expected.val then
            throw (.digit digit expected.val)
      | _, _ => pure ()
      if encoding.rexW && encoding.vector.isNone && !hasRexW bytes then
        throw .missingRexW

end Encoding

end OpcodeTable
