import OpcodeTable.Script.Basic

/-!
# Patterns

A pattern matches whole texts. A star stands for any text, a question mark for one byte and brackets for
one byte of a set; quoted characters stand for themselves.
-/

namespace OpcodeTable.Script

/-- A character with whether it was quoted. -/
structure Marked where
  char : Char
  isQuoted : Bool
deriving DecidableEq, Repr

inductive PatternItem where
  | literal (c : Char)
  | one
  | many
  | range (inverted : Bool) (ranges : List (Char × Char))
deriving DecidableEq, Repr

/-- The ranges up to the closing bracket, and the rest. A bracket that comes first is a member. -/
def readRanges : Bool → List (Char × Char) → List Marked → Option (List (Char × Char) × List Marked)
  | _, _, [] => none
  | isFirst, seen, low :: rest =>
      if low.char == ']' && !low.isQuoted && !isFirst then
        some (seen.reverse, rest)
      else
        match rest with
        | dash :: high :: later =>
            if dash.char == '-' && !dash.isQuoted && !(high.char == ']' && !high.isQuoted) then
              readRanges false ((low.char, high.char) :: seen) later
            else
              readRanges false ((low.char, low.char) :: seen) (dash :: high :: later)
        | other => readRanges false ((low.char, low.char) :: seen) other
termination_by _ _ text => text.length

def patternItems (fuel : Nat) (text : List Marked) : List PatternItem :=
  match fuel with
  | 0 => []
  | fuel + 1 =>
      match text with
      | [] => []
      | mark :: rest =>
          if mark.isQuoted then
            .literal mark.char :: patternItems fuel rest
          else if mark.char == '*' then
            .many :: patternItems fuel rest
          else if mark.char == '?' then
            .one :: patternItems fuel rest
          else if mark.char == '[' then
            let inverted := rest.head?.any fun next => (next.char == '!' || next.char == '^') && !next.isQuoted
            match readRanges true [] (if inverted then rest.drop 1 else rest) with
            | some (ranges, later) => .range inverted ranges :: patternItems fuel later
            | none => .literal mark.char :: patternItems fuel rest
          else
            .literal mark.char :: patternItems fuel rest

def PatternItem.matchesChar (c : Char) : PatternItem → Bool
  | .literal d => c == d
  | .one => true
  | .many => false
  | .range inverted ranges =>
      (ranges.any fun range => range.1.toNat ≤ c.toNat && c.toNat ≤ range.2.toNat) != inverted

/-- The items match the whole text. -/
def matchesItems : List PatternItem → Bytes → Bool
  | [], text => text.isEmpty
  | .many :: items, [] => matchesItems items []
  | .many :: items, c :: rest => matchesItems items (c :: rest) || matchesItems (.many :: items) rest
  | _ :: _, [] => false
  | item :: items, c :: rest => item.matchesChar c && matchesItems items rest
termination_by items text => items.length + text.length

/-- The pattern matches the whole text. -/
def matchesPattern (pattern : List Marked) (text : Bytes) : Bool :=
  matchesItems (patternItems (pattern.length + 1) pattern) text

/-- The pattern can match a text other than itself. -/
def hasPattern (text : List Marked) : Bool :=
  text.any fun mark => !mark.isQuoted && (mark.char == '*' || mark.char == '?' || mark.char == '[')

/-- The text without the start that a pattern matches, the shortest or the longest. -/
def dropMatchedStart (pattern : List Marked) (longest : Bool) (text : Bytes) : Bytes :=
  let counts := List.range (text.length + 1)
  match (if longest then counts.reverse else counts).find? fun count =>
      matchesPattern pattern (text.take count) with
  | some count => text.drop count
  | none => text

/-- The text without the end that a pattern matches, the shortest or the longest. -/
def dropMatchedEnd (pattern : List Marked) (longest : Bool) (text : Bytes) : Bytes :=
  let counts := List.range (text.length + 1)
  match (if longest then counts else counts.reverse).find? fun count =>
      matchesPattern pattern (text.drop count) with
  | some count => text.take count
  | none => text

end OpcodeTable.Script
