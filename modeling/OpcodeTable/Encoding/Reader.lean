import OpcodeTable.Encoding.Basic
import OpcodeTable.SyntaxError
import OpcodeTable.Text.Hex
import OpcodeTable.Text.Name
import OpcodeTable.Text.Words

/-!
# Reading encodings

An encoding text is a list of words. Each word is read on its own to a token; the tokens then fill in
an encoding from left to right. A hexadecimal byte is a prefix as long as neither an opcode byte nor a
vector group has come before it, and an opcode byte otherwise. Where a part can be given only once, the
last word that gives it counts.
-/

namespace OpcodeTable.Encoding

/-- The meaning of one word of an encoding text. A neutral word carries no information for the table. -/
inductive Token where
  | scheme (name : String)
  | vector (group : VectorGroup)
  | rexW
  | neutral
  | modRM (use : ModRM)
  | folded (byte : UInt8) (fold : Fold)
  | byte (value : UInt8)
  | immediate (marker : ImmediateMarker)
deriving DecidableEq, Repr

/-- What the fields of a vector group have given so far. -/
structure GroupDraft where
  length : GroupLength := .bits128
  map : Option OpcodeMap := none
  mandatory : Option PrefixByte := none
  wide : WideBit := .ignored
deriving DecidableEq, Repr

/-- Fill in one field of a vector group. Some fields belong to one family only, and some are written
for the reader and change nothing. -/
def GroupDraft.field? (family : VectorFamily) (draft : GroupDraft) (field : String) :
    Option GroupDraft :=
  let evex := family = .evex
  let xop := family = .xop
  match field with
  | "128" | "L0" | "LZ" => some { draft with length := .bits128 }
  | "256" | "L1" => some { draft with length := .bits256 }
  | "LIG" => some { draft with length := .ignored }
  | "512" => if evex then some { draft with length := .bits512 } else none
  | "LLIG" => if evex then some { draft with length := .ignored } else none
  | "0F" => if xop then none else some { draft with map := some .map0F }
  | "0F38" => if xop then none else some { draft with map := some .map0F38 }
  | "0F3A" => if xop then none else some { draft with map := some .map0F3A }
  | "MAP5" => if evex then some { draft with map := some .map5 } else none
  | "MAP6" => if evex then some { draft with map := some .map6 } else none
  | "08" | "M08" => if xop then some { draft with map := some .xop8 } else none
  | "09" | "M09" => if xop then some { draft with map := some .xop9 } else none
  | "0A" | "M0A" => if xop then some { draft with map := some .xopA } else none
  | "66" => if xop then none else some { draft with mandatory := some .operandSize }
  | "F2" => if xop then none else some { draft with mandatory := some .repne }
  | "F3" => if xop then none else some { draft with mandatory := some .rep }
  | "NP" => some { draft with mandatory := none }
  | "P0" => if xop then some { draft with mandatory := none } else none
  | "W0" => some { draft with wide := .zero }
  | "W1" => some { draft with wide := .one }
  | "WIG" => some { draft with wide := .ignored }
  | "NDS" | "NDD" | "DDS" => some draft
  | "K" | "Z" | "KZ" | "ER" | "SAE" | "B16" | "B32" | "B64" => if evex then some draft else none
  | _ => none

/-- Fill in the fields of a vector group from left to right. -/
def readFields (family : VectorFamily) (word : String) :
    GroupDraft → List (List Char) → Except SyntaxError GroupDraft
  | draft, [] => .ok draft
  | draft, field :: rest =>
      match draft.field? family (String.ofList field) with
      | none => .error (.unknownVectorField family.name (String.ofList field) word)
      | some draft => readFields family word draft rest

/-- Read a vector group: the family and then fields, all divided by points. -/
def readGroup (word : List Char) : Except SyntaxError VectorGroup :=
  let text := String.ofList word
  let parts := Text.pieces (· == '.') word
  let head := String.ofList (parts.headD [])
  match VectorFamily.ofName? head with
  | none => .error (.unknownVectorField "vector" head text)
  | some family =>
      match readFields family text {} parts.tail with
      | .error fault => .error fault
      | .ok draft =>
          match draft.map with
          | none => .error (.missingOpcodeMap text)
          | some map =>
              .ok
                { family := family
                  length := draft.length
                  map := map
                  mandatory := draft.mandatory
                  wide := draft.wide }

/-- Read what follows the slash of a ModRM word. -/
def readModRM? : List Char → Option ModRM
  | ['r'] => some .register
  | ['i', 's', '4'] => some .immediateRegister
  | ['0'] => some (.digit 0)
  | ['1'] => some (.digit 1)
  | ['2'] => some (.digit 2)
  | ['3'] => some (.digit 3)
  | ['4'] => some (.digit 4)
  | ['5'] => some (.digit 5)
  | ['6'] => some (.digit 6)
  | ['7'] => some (.digit 7)
  | _ => none

/-- Read what follows the plus sign of a fold. -/
def readFoldKind? (marker : List Char) : Option Fold :=
  match String.ofList marker with
  | "r" | "rb" | "rw" | "rd" | "ro" => some .register
  | "i" => some .stack
  | _ => none

/-- Read an opcode byte with a fold. The three low bits of the byte must be free for the number that
is added. -/
def readFold? (word : List Char) : Option (UInt8 × Fold) :=
  match Text.cutAt? '+' word with
  | none => none
  | some (digits, marker) =>
      match Text.readHexByte? digits, readFoldKind? marker with
      | some byte, some fold => if byte.toNat % 8 = 0 then some (byte, fold) else none
      | _, _ => none

/-- The word opens like a vector group. -/
def opensGroup (word : List Char) : Bool :=
  "VEX".toList.isPrefixOf word || "EVEX".toList.isPrefixOf word || "XOP".toList.isPrefixOf word

/-- Read one word of the encoding text. -/
def readToken (encoding : String) (word : List Char) : Except SyntaxError Token :=
  let text := String.ofList word
  let unknown : SyntaxError := .unknownToken text encoding
  if word.getLast? = some ':' then
    let name := word.dropLast
    if Text.isName name then
      .ok (.scheme (String.ofList name).toUpper)
    else
      .error unknown
  else if opensGroup word then
    (readGroup word).map .vector
  else if text = "REX.W" then
    .ok .rexW
  else if text = "REX" ∨ text = "NP" ∨ text = "NFx" then
    .ok .neutral
  else if word.head? = some '/' then
    match readModRM? word.tail with
    | some use => .ok (.modRM use)
    | none => .error (.invalidModRM text)
  else if word.contains '+' then
    match readFold? word with
    | some (byte, fold) => .ok (.folded byte fold)
    | none => .error (.invalidFold text)
  else
    match Text.readHexByte? word with
    | some byte => .ok (.byte byte)
    | none =>
        match ImmediateMarker.ofName? text with
        | some marker => .ok (.immediate marker)
        | none => .error unknown

/-- What the tokens have given so far. -/
structure Draft where
  scheme : Option String := none
  prefixes : PrefixSet := .empty
  opcode : List UInt8 := []
  rexW : Bool := false
  vector : Option VectorGroup := none
  modRM : Option ModRM := none
  fold : Option Fold := none
  immediates : List ImmediateMarker := []
deriving DecidableEq, Repr

namespace Draft

/-- Add a hexadecimal byte: a prefix in front of opcode and vector group, else an opcode byte. -/
def addByte (draft : Draft) (value : UInt8) : Draft :=
  match PrefixByte.ofByte? value with
  | some found =>
      if draft.opcode.isEmpty && draft.vector.isNone then
        { draft with prefixes := draft.prefixes.insert found }
      else
        { draft with opcode := draft.opcode ++ [value] }
  | none => { draft with opcode := draft.opcode ++ [value] }

/-- Fill in one token. -/
def add (draft : Draft) : Token → Draft
  | .scheme name => { draft with scheme := some name }
  | .vector group => { draft with vector := some group }
  | .rexW => { draft with rexW := true }
  | .neutral => draft
  | .modRM use => { draft with modRM := some use }
  | .folded byte fold => { draft with opcode := draft.opcode ++ [byte], fold := some fold }
  | .byte value => draft.addByte value
  | .immediate marker => { draft with immediates := draft.immediates ++ [marker] }

/-- Fill in words from left to right. The number of opcode bytes is checked after each of them. -/
def addWords (encoding : String) : Draft → List (List Char) → Except SyntaxError Draft
  | draft, [] => .ok draft
  | draft, word :: rest =>
      match readToken encoding word with
      | .error fault => .error fault
      | .ok token =>
          let filled := draft.add token
          if filled.opcode.length > opcodeLimit then
            .error (.opcodeTooLong encoding opcodeLimit)
          else
            addWords encoding filled rest

/-- The name of the scheme: the given one, else the family of the vector group, else the plain one. -/
def schemeName (draft : Draft) : String :=
  match draft.scheme, draft.vector with
  | some name, _ => name
  | none, some group => group.family.name
  | none, none => plainScheme

def finish (draft : Draft) : Encoding where
  scheme := draft.schemeName
  prefixes := draft.prefixes
  opcode := draft.opcode
  rexW := draft.rexW
  vector := draft.vector
  modRM := draft.modRM
  fold := draft.fold
  immediates := draft.immediates

end Draft

/-- Read an encoding text. -/
def parse (encoding : String) : Except SyntaxError Encoding :=
  match Draft.addWords encoding {} (Text.words encoding.toList) with
  | .error fault => .error fault
  | .ok draft =>
      if draft.opcode.isEmpty then
        .error (.missingOpcode encoding)
      else
        .ok draft.finish

end OpcodeTable.Encoding
