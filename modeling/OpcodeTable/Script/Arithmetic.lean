import OpcodeTable.Script.Format

/-!
# Arithmetic in scripts

Integer expressions with the operators of the command language, from the loosest to the tightest. A
division by zero and a text that is no expression have no value.
-/

namespace OpcodeTable.Script

/-- The operators between two values, by level from the loosest to the tightest. -/
def arithmeticLevels : List (List String) :=
  [["||"], ["&&"], ["|"], ["^"], ["&"], ["==", "!="], ["<=", ">=", "<", ">"], ["<<", ">>"], ["+", "-"],
    ["*", "/", "%"]]

/-- The truth of a condition as a number. -/
def truthValue (condition : Bool) : Int :=
  if condition then 1 else 0

/-- The value as a signed word of 64 bits. -/
def signedWord (value : Int) : Int :=
  Int.bmod value 18446744073709551616

def arithmeticOperation (operator : String) (left right : Int) : Option Int :=
  match operator with
  | "||" => some (truthValue (left != 0 || right != 0))
  | "&&" => some (truthValue (left != 0 && right != 0))
  | "|" => some (signedWord (wordOf left ||| wordOf right : Nat))
  | "^" => some (signedWord (wordOf left ^^^ wordOf right : Nat))
  | "&" => some (signedWord (wordOf left &&& wordOf right : Nat))
  | "==" => some (truthValue (left == right))
  | "!=" => some (truthValue (left != right))
  | "<=" => some (truthValue (decide (left ≤ right)))
  | ">=" => some (truthValue (decide (right ≤ left)))
  | "<" => some (truthValue (decide (left < right)))
  | ">" => some (truthValue (decide (right < left)))
  | "<<" => some (signedWord (wordOf left <<< (right.toNat % 64) : Nat))
  | ">>" => some (left >>> (right.toNat % 64))
  | "+" => some (signedWord (left + right))
  | "-" => some (signedWord (left - right))
  | "*" => some (signedWord (left * right))
  | "/" => if right == 0 then none else some (signedWord (Int.tdiv left right))
  | "%" => if right == 0 then none else some (Int.tmod left right)
  | _ => none

/-- The text after blanks. -/
def skipBlanks (text : Bytes) : Bytes :=
  text.dropWhile fun c => c == ' ' || c == '\t' || c == '\n'

/-- An operator at the start of a text, if it is one of some and is not the start of a longer one. -/
def arithmeticOperator? (choices : List String) (text : Bytes) : Option (String × Bytes) :=
  let longer := ["||", "&&", "==", "!=", "<=", ">=", "<<", ">>"]
  match longer.find? fun operator => operator.toList.isPrefixOf text with
  | some operator => if choices.contains operator then some (operator, text.drop 2) else none
  | none =>
      match choices.find? fun operator => operator.length == 1 && operator.toList.isPrefixOf text with
      | some operator => some (operator, text.drop 1)
      | none => none

mutual

/-- The value at a list of levels, and the rest. -/
def arithmeticLevel (fuel : Nat) (value : Bytes → Int) (levels : List (List String)) (text : Bytes) :
    Option (Int × Bytes) :=
  match fuel with
  | 0 => none
  | fuel + 1 =>
      match levels with
      | [] => arithmeticUnary fuel value (skipBlanks text)
      | level :: tighter =>
          match arithmeticLevel fuel value tighter text with
          | none => none
          | some (left, rest) => arithmeticRest fuel value level tighter left (skipBlanks rest)

/-- The value when more operators of a level follow a value. -/
def arithmeticRest (fuel : Nat) (value : Bytes → Int) (level : List String)
    (tighter : List (List String)) (left : Int) (text : Bytes) : Option (Int × Bytes) :=
  match fuel with
  | 0 => none
  | fuel + 1 =>
      match arithmeticOperator? level text with
      | none => some (left, text)
      | some (operator, rest) =>
          match arithmeticLevel fuel value tighter rest with
          | none => none
          | some (right, later) =>
              match arithmeticOperation operator left right with
              | none => none
              | some result => arithmeticRest fuel value level tighter result (skipBlanks later)

/-- The value of a number, a name, a sign before a value, or an expression in parentheses. -/
def arithmeticUnary (fuel : Nat) (value : Bytes → Int) (text : Bytes) : Option (Int × Bytes) :=
  match fuel with
  | 0 => none
  | fuel + 1 =>
      match text with
      | [] => none
      | c :: rest =>
          if c == '(' then
            match arithmeticLevel fuel value arithmeticLevels rest with
            | some (inner, later) =>
                match skipBlanks later with
                | ')' :: after => some (inner, after)
                | _ => none
            | none => none
          else if c == '-' then
            (arithmeticUnary fuel value (skipBlanks rest)).map fun found => (signedWord (-found.1), found.2)
          else if c == '+' then
            arithmeticUnary fuel value (skipBlanks rest)
          else if c == '!' then
            (arithmeticUnary fuel value (skipBlanks rest)).map fun found =>
              (truthValue (found.1 == 0), found.2)
          else if c == '~' then
            (arithmeticUnary fuel value (skipBlanks rest)).map fun found => (-found.1 - 1, found.2)
          else if c.isDigit then
            let digits := text.takeWhile Char.isAlphanum
            let (number, whole) := readNumber digits
            if whole then some (number, text.drop digits.length) else none
          else if opensName c then
            some (value (text.takeWhile continuesName), text.dropWhile continuesName)
          else
            none

end

/-- The value of an expression whose names have values. An empty expression is zero. -/
def arithmeticValue? (value : Bytes → Int) (text : Bytes) : Option Int :=
  if (skipBlanks text).isEmpty then
    some 0
  else
    match arithmeticLevel (16 * text.length + 32) value arithmeticLevels text with
    | some (result, rest) => if (skipBlanks rest).isEmpty then some result else none
    | none => none

end OpcodeTable.Script
