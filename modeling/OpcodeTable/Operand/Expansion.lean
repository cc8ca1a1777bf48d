import OpcodeTable.Choices
import OpcodeTable.Operand.Lexeme
import OpcodeTable.Operand.Name
import OpcodeTable.SyntaxError

/-!
# Expansion of operand texts

An operand text gives alternatives for each operand position, and each group in braces gives a mask for
the position before it or is a remark. The text stands for all tuples that choose one alternative per
position, and expansion lists them.

Words that name no type do not stop expansion at once: all of them are collected, and the first becomes
the error. A group that cannot be read, and a mask with nothing before it, do stop it.
-/

namespace OpcodeTable.Operand

/-- A part of an operand text that matters for the operand types: the alternatives of one position, or a mask
on the position before it. -/
inductive Item where
  | operand (word : List Char)
  | mask (masking : Masking)
deriving DecidableEq, Repr

/-- What a group in braces says. Rounding and exception control leave the operand types alone. -/
inductive Remark where
  | mask (masking : Masking)
  | zeroing
  | rounding
deriving DecidableEq, Repr

def maskText : Masking → String
  | .merge => Text.braced "k"
  | .zero => Text.braced "kz"

/-- Read a group in braces. Letter case and surrounding blanks do not matter. -/
def readRemark (inner : List Char) : Except SyntaxError Remark :=
  let text := (Text.trimBlanks inner).map Char.toLower
  match text with
  | ['k'] => .ok (.mask .merge)
  | ['k', 'z'] => .ok (.mask .zero)
  | ['z'] => .ok .zeroing
  | ['e', 'r'] => .ok .rounding
  | ['s', 'a', 'e'] => .ok .rounding
  | _ =>
      if text.head? = some 'k' ∧ text.length = 2 ∧ text.tail.all Char.isDigit then
        .ok (.mask .merge)
      else if "-sae".toList.isSuffixOf text then
        .ok .rounding
      else
        .error (.unknownOperand (Text.braced (String.ofList text)))

/-- Add a lexeme to the items before it, the last of which comes first. -/
def addLexeme (items : List Item) : Lexeme → Except SyntaxError (List Item)
  | .word text => .ok (.operand text :: items)
  | .group inner =>
      match readRemark inner with
      | .error fault => .error fault
      | .ok (.mask masking) => .ok (.mask masking :: items)
      | .ok .rounding => .ok items
      | .ok .zeroing =>
          match items with
          | .mask _ :: earlier => .ok (.mask .zero :: earlier)
          | _ => .error (.danglingMask (Text.braced "z"))

/-- Add lexemes to the items before them, the last of which comes first. -/
def addLexemes : List Item → List Lexeme → Except SyntaxError (List Item)
  | items, [] => .ok items
  | items, lexeme :: rest =>
      match addLexeme items lexeme with
      | .error fault => .error fault
      | .ok items => addLexemes items rest

/-- The items of an operand text. -/
def readItems (text : List Char) : Except SyntaxError (List Item) :=
  (addLexemes [] (lexemes text)).map List.reverse

/-- The words of an operand word that stand for one alternative each. -/
def alternativeWords (word : List Char) : List String :=
  (Text.nonemptyPieces (fun c => c == '/' || c == '|') word).map String.ofList

/-- The state of an expansion, with the alternatives of the last position first. -/
structure Progress where
  positions : List (List OperandType) := []
  unknown : List String := []
  fault : Option SyntaxError := none
deriving DecidableEq, Repr

namespace Progress

/-- Remember faults that do not stop the expansion: each is a word and the error it causes. -/
def note (progress : Progress) (faults : List (String × SyntaxError)) : Progress :=
  { progress with
    unknown := progress.unknown ++ faults.map Prod.fst
    fault := progress.fault.or (faults.head?.map Prod.snd) }

/-- The faults of an operand word: its alternatives that name no type, or the lack of any. -/
def wordFaults (word : List Char) : List (String × SyntaxError) :=
  let alternatives := alternativeWords word
  if alternatives.isEmpty then
    [(String.ofList word, .emptyOperand (String.ofList word))]
  else
    (alternatives.filter fun alternative => (OperandType.ofSpelling? alternative).isNone).map
      fun alternative => (alternative, .unknownOperand alternative)

/-- The types that an operand word names, each once. -/
def wordTypes (word : List Char) : List OperandType :=
  distinct ((alternativeWords word).filterMap OperandType.ofSpelling?)

/-- The faults of a mask on alternatives: those that take no such mask. -/
def maskFaults (masking : Masking) (types : List OperandType) : List (String × SyntaxError) :=
  (types.filter fun type => (type.withMask? masking).isNone).map fun type =>
    let word := type.name ++ maskText masking
    (word, .unknownOperand word)

/-- The alternatives under a mask; those that take no such mask stay. -/
def maskTypes (masking : Masking) (types : List OperandType) : List OperandType :=
  types.map fun type => (type.withMask? masking).getD type

/-- Expand one item. The left side of the result is a fault that stops the expansion. -/
def add (progress : Progress) : Item → Except SyntaxError Progress
  | .operand word =>
      .ok { progress.note (wordFaults word) with positions := wordTypes word :: progress.positions }
  | .mask masking =>
      match progress.positions with
      | [] => .error (.danglingMask (maskText masking))
      | types :: earlier =>
          .ok
            { progress.note (maskFaults masking types) with
              positions := maskTypes masking types :: earlier }

end Progress

/-- The tuples or the fault that stands for all of them, with the words that name no type in order. -/
structure Expansion where
  result : Except SyntaxError (List (List OperandType))
  unknown : List String

/-- Expand items from left to right. -/
def expandItems : Progress → List Item → Expansion
  | progress, [] =>
      match progress.fault with
      | some fault => ⟨.error fault, progress.unknown⟩
      | none => ⟨.ok (choices progress.positions.reverse), progress.unknown⟩
  | progress, item :: rest =>
      match progress.add item with
      | .error fault => ⟨.error fault, progress.unknown⟩
      | .ok progress => expandItems progress rest

/-- Expand an operand text. -/
def expand (text : String) : Expansion :=
  match readItems text.toList with
  | .error fault => ⟨.error fault, []⟩
  | .ok items => expandItems {} items

end OpcodeTable.Operand
