/-!
# Decimal numbers

Natural numbers are read from decimal digits. Sizes and counts are machine words: a number beyond 64
bits cannot be one.
-/

namespace OpcodeTable.Text

/-- The value of decimal digits, the first one highest. -/
def decimalValue (digits : List Char) : Nat :=
  digits.foldl (fun value digit => 10 * value + (digit.toNat - 48)) 0

/-- Read a number from one or more decimal digits and nothing else. -/
def readDecimal? (digits : List Char) : Option Nat :=
  if digits.isEmpty || !digits.all Char.isDigit then none else some (decimalValue digits)

/-- The numbers that fit into a machine word lie below this one. -/
def wordBound : Nat := 0x10000000000000000

/-- Read a size: decimal digits, with a plus sign in front or not, that fit into a machine word. -/
def readSize? (text : String) : Option Nat :=
  let digits :=
    match text.toList with
    | '+' :: rest => rest
    | chars => chars
  (readDecimal? digits).filter (· < wordBound)

end OpcodeTable.Text
