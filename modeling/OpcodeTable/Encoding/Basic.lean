import OpcodeTable.Encoding.PrefixByte

/-!
# Encodings

An encoding says how an instruction form becomes bytes: prefix bytes, the group that VEX, EVEX and
XOP forms carry in front, one to four opcode bytes, the use of the ModRM byte, a register number
folded into the last opcode byte, and the immediates that follow.
-/

namespace OpcodeTable

/-- The three families of vector groups. -/
inductive VectorFamily where
  | vex | evex | xop
deriving DecidableEq, Hashable, Repr

namespace VectorFamily

/-- The word that opens a group of this family. -/
def name : VectorFamily → String
  | .vex => "VEX"
  | .evex => "EVEX"
  | .xop => "XOP"

/-- The family that a word opens. -/
def ofName? : String → Option VectorFamily
  | "VEX" => some .vex
  | "EVEX" => some .evex
  | "XOP" => some .xop
  | _ => none

end VectorFamily

/-- The length that a vector group fixes, or that its length bits are ignored. -/
inductive GroupLength where
  | bits128 | bits256 | bits512 | ignored
deriving DecidableEq, Hashable, Repr

/-- Length in bits, where the group fixes one. -/
def GroupLength.bits? : GroupLength → Option Nat
  | .bits128 => some 128
  | .bits256 => some 256
  | .bits512 => some 512
  | .ignored => none

/-- The opcode maps that vector groups choose from. -/
inductive OpcodeMap where
  | map0F | map0F38 | map0F3A | map5 | map6 | xop8 | xop9 | xopA
deriving DecidableEq, Hashable, Repr

/-- The bytes that stand for a map in front of the opcode. -/
def OpcodeMap.escape : OpcodeMap → List UInt8
  | .map0F => [0x0F]
  | .map0F38 => [0x0F, 0x38]
  | .map0F3A => [0x0F, 0x3A]
  | .map5 => [0x05]
  | .map6 => [0x06]
  | .xop8 => [0x08]
  | .xop9 => [0x09]
  | .xopA => [0x0A]

/-- The W bit of a vector group. -/
inductive WideBit where
  | zero | one | ignored
deriving DecidableEq, Hashable, Repr

/-- A VEX, EVEX or XOP group, with the prefix byte that it stands in for. -/
structure VectorGroup where
  family : VectorFamily
  length : GroupLength
  map : OpcodeMap
  mandatory : Option PrefixByte
  wide : WideBit
deriving DecidableEq, Repr

/-- What the register field of the ModRM byte holds. An immediate register comes with another register in
the immediate. -/
inductive ModRM where
  | digit (value : Fin 8)
  | register
  | immediateRegister
deriving DecidableEq, Repr

namespace ModRM

/-- The number of a use of the ModRM byte, from 1 to 10. -/
def code : ModRM → Nat
  | .digit value => value.val + 1
  | .register => 9
  | .immediateRegister => 10

/-- The word behind the slash that writes a use. -/
def name : ModRM → String
  | .digit value => toString value.val
  | .register => "r"
  | .immediateRegister => "is4"

end ModRM

/-- What is added to the last opcode byte: the number of a general register, or of one of the
floating-point stack. -/
inductive Fold where
  | register
  | stack
deriving DecidableEq, Hashable, Repr

/-- The letter that writes a fold. -/
def Fold.name : Fold → String
  | .register => "r"
  | .stack => "i"

/-- An immediate or branch distance behind the opcode. -/
inductive ImmediateMarker where
  | ib | iw | id | iq | io | cb | cw | cd | cp | co | ct
deriving DecidableEq, Hashable, Repr

namespace ImmediateMarker

/-- Every marker. -/
def all : List ImmediateMarker :=
  [.ib, .iw, .id, .iq, .io, .cb, .cw, .cd, .cp, .co, .ct]

/-- The word that writes a marker. -/
def name : ImmediateMarker → String
  | .ib => "ib"
  | .iw => "iw"
  | .id => "id"
  | .iq => "iq"
  | .io => "io"
  | .cb => "cb"
  | .cw => "cw"
  | .cd => "cd"
  | .cp => "cp"
  | .co => "co"
  | .ct => "ct"

/-- The marker that a word writes. -/
def ofName? (name : String) : Option ImmediateMarker :=
  all.find? fun marker => marker.name == name

end ImmediateMarker

/-- How an instruction form becomes bytes. The opcode is what stands behind the map escape, and the fold is
added to its last byte. -/
structure Encoding where
  scheme : String
  prefixes : PrefixSet
  opcode : List UInt8
  rexW : Bool
  vector : Option VectorGroup
  modRM : Option ModRM
  fold : Option Fold
  immediates : List ImmediateMarker
deriving DecidableEq, Repr

namespace Encoding

/-- The most opcode bytes that an encoding may have. -/
def opcodeLimit : Nat := 4

/-- The scheme of an encoding without vector group. -/
def plainScheme : String := "NORMAL"

/-- The form has an EVEX group. -/
def isEvex (encoding : Encoding) : Bool :=
  encoding.vector.any fun group => group.family == .evex

/-- The map escape of the vector group, then the opcode bytes. -/
def fullOpcode (encoding : Encoding) : List UInt8 :=
  match encoding.vector with
  | none => encoding.opcode
  | some group => group.map.escape ++ encoding.opcode

/-- The prefix bytes, and last the one that the vector group stands in for. -/
def allPrefixes (encoding : Encoding) : List PrefixByte :=
  encoding.prefixes.members ++ (encoding.vector.bind VectorGroup.mandatory).toList

/-- How much an encoding takes: one for any prefix bytes, one for each opcode byte other than zero,
one for the ModRM byte and one for the REX prefix. -/
def size (encoding : Encoding) : Nat :=
  (if encoding.prefixes.isEmpty then 0 else 1) +
    encoding.opcode.countP (· != 0) +
    (if encoding.modRM.isSome then 1 else 0) +
    (if encoding.rexW then 1 else 0)

end Encoding

end OpcodeTable
