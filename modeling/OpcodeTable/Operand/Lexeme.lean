import OpcodeTable.Text.Words

/-!
# Lexemes of operand texts

An operand text consists of words and of groups in braces. Commas and blanks end a word, and so does an
opening brace. A part in square brackets is an annotation: it vanishes, and the word around it goes on.
A bracket or brace that is never closed reaches to the end of the text.
-/

namespace OpcodeTable.Operand

/-- A part of an operand text: a word, or the text between two braces. -/
inductive Lexeme where
  | word (text : List Char)
  | group (text : List Char)
deriving DecidableEq, Repr

/-- The word without the mark that tells whether the operand is read, written or both. -/
def dropAccessMark : List Char → List Char
  | mark :: ':' :: rest =>
      if ['r', 'w', 'x', 'R', 'W', 'X'].contains mark then rest else mark :: ':' :: rest
  | word => word

/-- The lexeme of a finished word, if there is one: an empty word is none, and neither is one that
opens with an angle bracket, which stands for an operand that is not encoded. -/
def wordLexeme (word : List Char) : Option Lexeme :=
  let text := dropAccessMark word
  if text.isEmpty || text.head? = some '<' then none else some (.word text)

/-- The state of a scan: where it is, the lexemes found so far with the last one first, and the
characters of the current word or group with the last one first. -/
inductive Scan where
  | outside (found : List Lexeme) (word : List Char)
  | bracketed (found : List Lexeme) (word : List Char)
  | braces (found : List Lexeme) (inner : List Char)
deriving DecidableEq, Repr

namespace Scan

/-- The lexemes found so far and the finished word. -/
def flush (found : List Lexeme) (word : List Char) : List Lexeme :=
  (wordLexeme word.reverse).toList ++ found

/-- Scan one character. -/
def step : Scan → Char → Scan
  | .outside found word, c =>
      if c = '[' then
        .bracketed found word
      else if c = '\x7b' then
        .braces (flush found word) []
      else if c = ',' || Text.isBlank c then
        .outside (flush found word) []
      else
        .outside found (c :: word)
  | .bracketed found word, c =>
      if c = ']' then .outside found word else .bracketed found word
  | .braces found inner, c =>
      if c = '\x7d' then .outside (.group inner.reverse :: found) [] else .braces found (c :: inner)

/-- The lexemes at the end of the text, the last one first. -/
def finish : Scan → List Lexeme
  | .outside found word => flush found word
  | .bracketed found word => flush found word
  | .braces found inner => .group inner.reverse :: found

end Scan

/-- The lexemes of an operand text. -/
def lexemes (text : List Char) : List Lexeme :=
  (text.foldl Scan.step (.outside [] [])).finish.reverse

end OpcodeTable.Operand
