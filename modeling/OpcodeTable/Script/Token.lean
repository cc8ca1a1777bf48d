import OpcodeTable.Script.Basic

/-!
# Tokens of scripts

A script is cut into words, operators and line ends. Comments and joined lines vanish here. A quote or a
brace that is never closed ends the list with a token that says so, so that the commands before it can
still be read.
-/

namespace OpcodeTable.Script

/-- A token of a script. A quote or brace that is never closed comes with how that is reported. -/
inductive Token where
  | word (parts : Word)
  | operator (text : Bytes)
  | descriptor (number : Nat)
  | lineEnd
  | unclosed (reason : String)
deriving Repr

/-- The character can open a name. -/
def opensName (c : Char) : Bool :=
  c.isAlpha || c == '_'

/-- The character can stand in a name. -/
def continuesName (c : Char) : Bool :=
  c.isAlphanum || c == '_'

def isVariableName (text : Bytes) : Bool :=
  match text with
  | [] => false
  | c :: rest => opensName c && rest.all continuesName

/-- The character is a parameter of its own. -/
def isSpecialParameter (c : Char) : Bool :=
  "@*#?-$!".toList.contains c

/-- The character ends a word outside quotes. -/
def endsWord (c : Char) : Bool :=
  " \t\n;&|<>()".toList.contains c

/-- Where a search for a closing character stands. -/
inductive ScanMode where
  | bare | single | double | escaped | doubleEscaped
deriving DecidableEq, Repr

/-- The text up to the character that closes the opening one that stands before it, and the rest. -/
def scanClosed (opening closing : Char) :
    ScanMode → Nat → Bytes → Bytes → Option (Bytes × Bytes)
  | _, _, _, [] => none
  | .single, depth, seen, c :: rest =>
      scanClosed opening closing (if c == singleQuote then .bare else .single) depth (c :: seen) rest
  | .double, depth, seen, c :: rest =>
      scanClosed opening closing
        (if c == doubleQuote then .bare else if c == backslash then .doubleEscaped else .double)
        depth (c :: seen) rest
  | .escaped, depth, seen, c :: rest => scanClosed opening closing .bare depth (c :: seen) rest
  | .doubleEscaped, depth, seen, c :: rest => scanClosed opening closing .double depth (c :: seen) rest
  | .bare, depth, seen, c :: rest =>
      if c == closing then
        match depth with
        | 0 => some (seen.reverse, rest)
        | depth + 1 => scanClosed opening closing .bare depth (c :: seen) rest
      else if c == opening then
        scanClosed opening closing .bare (depth + 1) (c :: seen) rest
      else if c == singleQuote then
        scanClosed opening closing .single depth (c :: seen) rest
      else if c == doubleQuote then
        scanClosed opening closing .double depth (c :: seen) rest
      else if c == backslash then
        scanClosed opening closing .escaped depth (c :: seen) rest
      else
        scanClosed opening closing .bare depth (c :: seen) rest

/-- The script between backquotes, with its own quoting taken off, and the rest. -/
def scanBackquoted : Bytes → Bytes → Option (Bytes × Bytes)
  | _, [] => none
  | seen, c :: rest =>
      if c == backquote then
        some (seen.reverse, rest)
      else if c == backslash then
        match rest with
        | [] => none
        | d :: later =>
            if d == backquote || d == backslash || d == '$' then
              scanBackquoted (d :: seen) later
            else
              scanBackquoted (d :: c :: seen) later
      else
        scanBackquoted (c :: seen) rest

/-- The use of a parameter that an operator asks for, whether it is strict, and the text after it. -/
def parameterUse? : Bytes → Option (ParameterUse × Bool × Bytes)
  | [] => some (.value, false, [])
  | ':' :: '-' :: rest => some (.default, true, rest)
  | ':' :: '=' :: rest => some (.assign, true, rest)
  | ':' :: '+' :: rest => some (.alternative, true, rest)
  | ':' :: '?' :: rest => some (.require, true, rest)
  | '-' :: rest => some (.default, false, rest)
  | '=' :: rest => some (.assign, false, rest)
  | '+' :: rest => some (.alternative, false, rest)
  | '?' :: rest => some (.require, false, rest)
  | '#' :: '#' :: rest => some (.dropStart true, false, rest)
  | '#' :: rest => some (.dropStart false, false, rest)
  | '%' :: '%' :: rest => some (.dropEnd true, false, rest)
  | '%' :: rest => some (.dropEnd false, false, rest)
  | _ => none

/-- The name of a parameter at the start of a text, and the rest. -/
def parameterName (text : Bytes) : Bytes × Bytes :=
  match text with
  | [] => ([], [])
  | c :: rest =>
      if opensName c then
        (text.takeWhile continuesName, text.dropWhile continuesName)
      else if c.isDigit then
        (text.takeWhile Char.isDigit, text.dropWhile Char.isDigit)
      else if isSpecialParameter c then
        ([c], rest)
      else
        ([], text)

/-- Where the parts of a word are read: up to a character that ends it, or up to the end of the text. -/
inductive WordMode where
  | outside
  | whole
  | inside
  | wholeInside
deriving DecidableEq, Repr

def WordMode.inQuotes : WordMode → Bool
  | .inside | .wholeInside => true
  | .outside | .whole => false

/-- How an open quote is reported. -/
def unclosedQuote : String := "Unterminated quoted string"

/-- How braces that hold no parameter are reported. -/
def badParameter : String := "Bad substitution"

/-- The word of the use is a pattern, which quotes around the parameter do not quote. -/
def ParameterUse.takesPattern : ParameterUse → Bool
  | .dropStart _ | .dropEnd _ => true
  | _ => false

mutual

/-- The parameter in braces that a text spells. -/
def readBraced (fuel : Nat) (text : Bytes) (inQuotes : Bool) : Except String Part :=
  match fuel with
  | 0 => .error unclosedQuote
  | fuel + 1 =>
      match text with
      | '#' :: c :: rest =>
          let (name, later) := parameterName (c :: rest)
          if name.isEmpty || !later.isEmpty then
            .error badParameter
          else
            .ok (.parameter name .length false [] inQuotes)
      | _ =>
          let (name, rest) := parameterName text
          if name.isEmpty then
            .error badParameter
          else
            match parameterUse? rest with
            | none => .error badParameter
            | some (use, strict, word) =>
                match readParts fuel (if inQuotes && !use.takesPattern then .wholeInside else .whole) [] word with
                | .error reason => .error reason
                | .ok (parts, _) => .ok (.parameter name use strict parts inQuotes)

/-- The part that a dollar sign opens, and the rest. -/
def readDollar (fuel : Nat) (text : Bytes) (inQuotes : Bool) : Except String (Part × Bytes) :=
  match fuel with
  | 0 => .error unclosedQuote
  | fuel + 1 =>
      match text with
      | '(' :: '(' :: rest =>
          match scanClosed '(' ')' .bare 0 [] rest with
          | some (expression, ')' :: later) =>
              match readParts fuel .wholeInside [] expression with
              | .error reason => .error reason
              | .ok (parts, _) => .ok (.arithmetic parts inQuotes, later)
          | _ => .error "Missing '))'"
      | '(' :: rest =>
          match scanClosed '(' ')' .bare 0 [] rest with
          | none => .error "end of file unexpected (expecting \")\")"
          | some (script, later) => .ok (.output script inQuotes, later)
      | c :: rest =>
          if c == leftBrace then
            match scanClosed leftBrace rightBrace .bare 0 [] rest with
            | none => .error "Missing '\x7d'"
            | some (inner, later) =>
                match readBraced fuel inner inQuotes with
                | .error reason => .error reason
                | .ok part => .ok (part, later)
          else if c.isDigit then
            .ok (.parameter [c] .value false [] inQuotes, rest)
          else
            let (name, later) := parameterName text
            if name.isEmpty then
              .ok (if inQuotes then .quoted ['$'] else .plain '$', text)
            else
              .ok (.parameter name .value false [] inQuotes, later)
      | [] => .ok (if inQuotes then .quoted ['$'] else .plain '$', [])

/-- The parts of a word, and the rest after its end. The parts that were read before come in reverse. -/
def readParts (fuel : Nat) (mode : WordMode) (seen : Word) (text : Bytes) : Except String (Word × Bytes) :=
  match fuel with
  | 0 => .error unclosedQuote
  | fuel + 1 =>
      match text with
      | [] => if mode == .inside then .error unclosedQuote else .ok (seen.reverse, [])
      | c :: rest =>
          if mode == .outside && endsWord c then
            .ok (seen.reverse, text)
          else if mode == .inside && c == doubleQuote then
            .ok (seen.reverse, rest)
          else if c == '$' then
            match readDollar fuel rest mode.inQuotes with
            | .error reason => .error reason
            | .ok (part, later) => readParts fuel mode (part :: seen) later
          else if c == backquote then
            match scanBackquoted [] rest with
            | none => .error "EOF in backquote substitution"
            | some (script, later) =>
                readParts fuel mode (.output script mode.inQuotes :: seen) later
          else if mode.inQuotes then
            if c == backslash then
              match rest with
              | [] => readParts fuel mode (.quoted [c] :: seen) []
              | d :: later =>
                  if d == '\n' then
                    readParts fuel mode seen later
                  else if d == '$' || d == backquote || d == doubleQuote || d == backslash then
                    readParts fuel mode (.quoted [d] :: seen) later
                  else
                    readParts fuel mode (.quoted [d] :: .quoted [c] :: seen) later
            else
              readParts fuel mode (.quoted [c] :: seen) rest
          else if c == backslash then
            match rest with
            | [] => readParts fuel mode (.quoted [c] :: seen) []
            | d :: later =>
                if d == '\n' then
                  readParts fuel mode seen later
                else
                  readParts fuel mode (.quoted [d] :: seen) later
          else if c == singleQuote then
            if rest.contains singleQuote then
              readParts fuel mode (.quoted (rest.takeWhile (· != singleQuote)) :: seen)
                ((rest.dropWhile (· != singleQuote)).drop 1)
            else
              .error unclosedQuote
          else if c == doubleQuote then
            match readParts fuel .inside [] rest with
            | .error reason => .error reason
            | .ok (parts, later) =>
                readParts fuel mode
                  ((if parts.isEmpty then [.quoted []] else parts.reverse) ++ seen) later
          else
            readParts fuel mode (.plain c :: seen) rest

end

/-- The operators, longer ones first. -/
def operators : List Bytes :=
  [";;", "&&", "||", ">>", ">|", ">&", "<&", "<>", ";", "&", "|", "<", ">", "(", ")"].map String.toList

/-- The operator at the start of a text. -/
def operator? (text : Bytes) : Option Bytes :=
  operators.find? fun operator => operator.isPrefixOf text

def digitsValue (digits : Bytes) : Nat :=
  digits.foldl (fun value digit => value * 10 + (digit.toNat - 48)) 0

/-- The tokens of a text, each with its line. -/
def tokens (fuel line : Nat) (text : Bytes) : List (Nat × Token) :=
  match fuel with
  | 0 => [(line, .unclosed unclosedQuote)]
  | fuel + 1 =>
      match text with
      | [] => []
      | c :: rest =>
          if c == ' ' || c == '\t' then
            tokens fuel line rest
          else if c == '\n' then
            (line, .lineEnd) :: tokens fuel (line + 1) rest
          else if c == '#' then
            tokens fuel line (text.dropWhile (· != '\n'))
          else if c == backslash && rest.head? == some '\n' then
            tokens fuel (line + 1) (rest.drop 1)
          else
            match operator? text with
            | some operator =>
                (line, .operator operator) :: tokens fuel line (text.drop operator.length)
            | none =>
                match readParts (2 * text.length + 2) .outside [] text with
                | .error reason => [(line, .unclosed reason)]
                | .ok (parts, later) =>
                    let used := text.take (text.length - later.length)
                    let next := line + used.count '\n'
                    let token : Token :=
                      if used.all Char.isDigit && (later.head? == some '<' || later.head? == some '>') then
                        .descriptor (digitsValue used)
                      else
                        .word parts
                    (line, token) :: tokens fuel next later

def tokenize (script : Bytes) : List (Nat × Token) :=
  tokens (script.length + 1) 1 script

end OpcodeTable.Script
