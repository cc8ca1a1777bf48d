/-!
# Scripts

Scripts stand in for the programs that an external assembler starts, where such programs are wanted for a
run. They are no part of the model: an assembler takes any `Launcher`, the theory is about all launchers, and
nothing here is used or stated in it. Only the outer layer and the tests of the program run scripts.

The command language of scripts. A word is a list of parts, which are kept apart by how they were quoted,
because quoting decides later whether a part is split into fields or matched as a pattern. Texts are lists
of characters that stand for single bytes.
-/

namespace OpcodeTable.Script

/-- A text of bytes, each written as the character with its number. -/
abbrev Bytes := List Char

/-- The quote that keeps everything. -/
def singleQuote : Char := Char.ofNat 39

/-- The quote that keeps all but expansions. -/
def doubleQuote : Char := Char.ofNat 34

/-- The character that quotes the next one. -/
def backslash : Char := Char.ofNat 92

/-- The quote around a command whose output is taken. -/
def backquote : Char := Char.ofNat 96

/-- The character that opens a braced parameter or a group. -/
def leftBrace : Char := Char.ofNat 123

/-- The character that closes a braced parameter or a group. -/
def rightBrace : Char := Char.ofNat 125

/-- What is done with the value of a parameter. Another word stands for a value that is missing, becomes
it, or stands for a value that is there. -/
inductive ParameterUse where
  | value
  | length
  | default
  | assign
  | alternative
  | require
  | dropStart (longest : Bool)
  | dropEnd (longest : Bool)
deriving DecidableEq, Repr

/-- A part of a word. An empty value of a strict parameter counts as none. -/
inductive Part where
  | plain (c : Char)
  | quoted (text : Bytes)
  | parameter (name : Bytes) (use : ParameterUse) (strict : Bool) (word : List Part) (inQuotes : Bool)
  | output (script : Bytes) (inQuotes : Bool)
  | arithmetic (expression : List Part) (inQuotes : Bool)
deriving Repr

abbrev Word := List Part

/-- The text of a word that has no quotes and no expansions. -/
def Word.plainText? : Word → Option Bytes
  | [] => some []
  | .plain c :: rest => (Word.plainText? rest).map (c :: ·)
  | _ :: _ => none

/-- How a descriptor is redirected. -/
inductive RedirectKind where
  | input | output | append | both | duplicate
deriving DecidableEq, Repr

structure Redirect where
  descriptor : Nat
  kind : RedirectKind
  target : Word
deriving Repr

/-- A command of a script. A simple command knows its line, and nobody waits for one in the background. -/
inductive Command where
  | simple (line : Nat) (assignments : List (Bytes × Word)) (words : List Word)
      (redirects : List Redirect)
  | pipeline (stages : List Command)
  | negate (command : Command)
  | sequence (first second : Command)
  | both (first second : Command)
  | either (first second : Command)
  | subshell (body : Command)
  | conditional (test yes no : Command)
  | loop (untilTest : Bool) (test body : Command)
  | iterate (name : Bytes) (words : Option (List Word)) (body : Command)
  | choose (subject : Word) (branches : List (List Word × Command))
  | define (name : Bytes) (body : Command)
  | redirected (body : Command) (redirects : List Redirect)
  | background (command : Command)
  | nothing
deriving Repr

end OpcodeTable.Script
