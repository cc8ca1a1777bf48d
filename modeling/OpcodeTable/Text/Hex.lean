/-!
# Hexadecimal text

Bytes are written as two upper-case hexadecimal digits and read back from exactly that form.
-/

namespace OpcodeTable.Text

/-- The upper-case hexadecimal digit of a number below sixteen. -/
def hexDigit (value : Nat) : Char :=
  if value < 10 then Char.ofNat (48 + value) else Char.ofNat (55 + value)

/-- The value of a decimal digit or of an upper-case letter from `A` to `F`. -/
def hexDigitValue? (c : Char) : Option Nat :=
  if '0' ≤ c ∧ c ≤ '9' then
    some (c.toNat - 48)
  else if 'A' ≤ c ∧ c ≤ 'F' then
    some (c.toNat - 55)
  else
    none

/-- The digits of a number in exactly the given width, the lowest last. -/
def hexFixed : Nat → Nat → List Char
  | 0, _ => []
  | width + 1, value => hexFixed width (value / 16) ++ [hexDigit (value % 16)]

/-- A byte as two digits. -/
def hexByte (byte : UInt8) : List Char :=
  hexFixed 2 byte.toNat

/-- Bytes as two digits each. -/
def hexBytes (bytes : List UInt8) : List Char :=
  bytes.flatMap hexByte

/-- Read a byte from exactly two digits. -/
def readHexByte? : List Char → Option UInt8
  | [high, low] =>
      match hexDigitValue? high, hexDigitValue? low with
      | some highValue, some lowValue => some (UInt8.ofNat (16 * highValue + lowValue))
      | _, _ => none
  | _ => none

end OpcodeTable.Text
