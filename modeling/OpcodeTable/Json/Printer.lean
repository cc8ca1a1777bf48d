import OpcodeTable.Json.Basic

/-!
# Printing JSON values

A value is printed on one line without blanks, or over several lines with two blanks for each level.
In texts only quotes, backslashes and control characters are escaped.
-/

namespace OpcodeTable.Json

/-- The lower-case hexadecimal digit of a number below sixteen. -/
def lowerHexDigit (value : Nat) : Char :=
  if value < 10 then Char.ofNat (48 + value) else Char.ofNat (87 + value)

/-- A character as it is written in a text. -/
def escapeChar (c : Char) : List Char :=
  if c = '"' then
    ['\\', '"']
  else if c = '\\' then
    ['\\', '\\']
  else if c = '\x08' then
    ['\\', 'b']
  else if c = '\x0c' then
    ['\\', 'f']
  else if c = '\n' then
    ['\\', 'n']
  else if c = '\r' then
    ['\\', 'r']
  else if c = '\t' then
    ['\\', 't']
  else if c.toNat < 0x20 then
    ['\\', 'u', '0', '0', lowerHexDigit (c.toNat / 16), lowerHexDigit (c.toNat % 16)]
  else
    [c]

def quote (text : String) : String :=
  String.ofList ('"' :: text.toList.flatMap escapeChar ++ ['"'])

/-- A text in quotes. One without characters is written as the character for unknown ones. -/
def quoteText (text : Option String) : String :=
  quote (text.getD "�")

mutual

/-- A value on one line. -/
def compact : Json → String
  | .null => "null"
  | .bool true => "true"
  | .bool false => "false"
  | .natural value => toString value
  | .number literal => String.ofList literal
  | .text value => quoteText value
  | .array items => "[" ++ ",".intercalate (compactItems items) ++ "]"
  | .object members => "\x7b" ++ ",".intercalate (compactMembers members) ++ "\x7d"

/-- Values on one line each. -/
def compactItems : List Json → List String
  | [] => []
  | item :: rest => item.compact :: compactItems rest

/-- Keys with their values on one line each. -/
def compactMembers : List (Option String × Json) → List String
  | [] => []
  | (key, value) :: rest => (quoteText key ++ ":" ++ value.compact) :: compactMembers rest

end

/-- A line break and the indentation of a level. -/
def lineBreak (level : Nat) : String :=
  String.ofList ('\n' :: List.replicate (2 * level) ' ')

/-- Parts between brackets, one on each line a level further in. -/
def layOut (opening closing : String) (level : Nat) : List String → String
  | [] => opening ++ closing
  | parts =>
      opening ++ lineBreak (level + 1) ++ ("," ++ lineBreak (level + 1)).intercalate parts ++
        lineBreak level ++ closing

mutual

/-- A value over several lines, at a level of indentation. -/
def pretty (level : Nat) : Json → String
  | .array items => layOut "[" "]" level (prettyItems (level + 1) items)
  | .object members => layOut "\x7b" "\x7d" level (prettyMembers (level + 1) members)
  | .null => "null"
  | .bool true => "true"
  | .bool false => "false"
  | .natural value => toString value
  | .number literal => String.ofList literal
  | .text value => quoteText value

/-- Values at a level of indentation. -/
def prettyItems (level : Nat) : List Json → List String
  | [] => []
  | item :: rest => item.pretty level :: prettyItems level rest

/-- Keys with their values at a level of indentation. -/
def prettyMembers (level : Nat) : List (Option String × Json) → List String
  | [] => []
  | (key, value) :: rest =>
      (quoteText key ++ ": " ++ value.pretty level) :: prettyMembers level rest

end

end OpcodeTable.Json
