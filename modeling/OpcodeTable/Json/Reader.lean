import OpcodeTable.Json.Basic
import OpcodeTable.Json.Token

/-!
# Reading JSON values

A document is one value with nothing behind it. Values are read from tokens; every step takes a token
away, so the number of tokens bounds the number of steps.
-/

namespace OpcodeTable.Json

mutual

/-- Read a value from the front of a list of tokens, in at most the given number of steps. -/
def readValue : Nat → List Token → Option (Json × List Token)
  | 0, _ => none
  | steps + 1, token :: rest =>
      match token with
      | .null => some (.null, rest)
      | .bool value => some (.bool value, rest)
      | .natural value => some (.natural value, rest)
      | .number literal => some (.number literal, rest)
      | .text value => some (.text value, rest)
      | .openArray =>
          match rest with
          | .closeArray :: rest => some (.array [], rest)
          | _ => (readItems steps rest).map fun (items, rest) => (.array items, rest)
      | .openObject =>
          match rest with
          | .closeObject :: rest => some (.object [], rest)
          | _ => (readMembers steps rest).map fun (members, rest) => (.object members, rest)
      | _ => none
  | _, [] => none

/-- Read the items of an array up to its end. There is at least one. -/
def readItems : Nat → List Token → Option (List Json × List Token)
  | 0, _ => none
  | steps + 1, tokens =>
      match readValue steps tokens with
      | some (item, .closeArray :: rest) => some ([item], rest)
      | some (item, .comma :: rest) =>
          (readItems steps rest).map fun (items, rest) => (item :: items, rest)
      | _ => none

/-- Read the members of an object up to its end. There is at least one. -/
def readMembers : Nat → List Token → Option (List (Option String × Json) × List Token)
  | 0, _ => none
  | steps + 1, .text key :: .colon :: tokens =>
      match readValue steps tokens with
      | some (value, .closeObject :: rest) => some ([(key, value)], rest)
      | some (value, .comma :: rest) =>
          (readMembers steps rest).map fun (members, rest) => ((key, value) :: members, rest)
      | _ => none
  | _, _ => none

end

/-- The value that a list of tokens is. -/
def ofTokens? (tokens : List Token) : Option Json :=
  match readValue (tokens.length + 1) tokens with
  | some (value, []) => some value
  | _ => none

/-- The value that a text is. -/
def parse? (text : String) : Option Json :=
  (tokens? text.toList).bind ofTokens?

end OpcodeTable.Json
