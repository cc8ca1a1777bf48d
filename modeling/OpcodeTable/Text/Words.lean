import OpcodeTable.Text.Blank

/-!
# Pieces and words of a text

A text is cut at every character of a class. The pieces between the cuts may be empty; the words of
a text are its nonempty pieces between blank characters.
-/

namespace OpcodeTable.Text

/-- Put a character in front of the first piece. -/
def extendFirst (c : Char) : List (List Char) → List (List Char)
  | [] => [[c]]
  | piece :: rest => (c :: piece) :: rest

/-- Cut a text at every character of a class; the cut characters vanish. -/
def pieces (separates : Char → Bool) : List Char → List (List Char)
  | [] => [[]]
  | c :: rest =>
      if separates c then
        [] :: pieces separates rest
      else
        extendFirst c (pieces separates rest)

def nonemptyPieces (separates : Char → Bool) (text : List Char) : List (List Char) :=
  (pieces separates text).filter fun piece => !piece.isEmpty

/-- The maximal runs of characters that are not blank. -/
def words (text : List Char) : List (List Char) :=
  nonemptyPieces isBlank text

/-- Cut a text at the first occurrence of a character, if there is one. -/
def cutAt? (mark : Char) : List Char → Option (List Char × List Char)
  | [] => none
  | c :: rest =>
      if c = mark then
        some ([], rest)
      else
        (cutAt? mark rest).map fun (before, after) => (c :: before, after)

/-- A text between braces. -/
def braced (text : String) : String :=
  "\x7b" ++ text ++ "\x7d"

end OpcodeTable.Text
