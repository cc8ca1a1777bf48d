/-!
# Blank characters

The characters that separate words and that trimming removes are those with the Unicode property
`White_Space`. The property has 25 members, of which the six of ASCII are the usual ones.
-/

namespace OpcodeTable.Text

/-- The character has the Unicode property `White_Space`. -/
def isBlank (c : Char) : Bool :=
  let code := c.toNat
  (9 ≤ code && code ≤ 13) || code == 0x20 || code == 0x85 || code == 0xA0 || code == 0x1680 ||
    (0x2000 ≤ code && code ≤ 0x200A) || code == 0x2028 || code == 0x2029 || code == 0x202F ||
    code == 0x205F || code == 0x3000

/-- The text without the blank characters at its start. -/
def trimStart (text : List Char) : List Char :=
  text.dropWhile isBlank

/-- The text without the blank characters at its end. -/
def trimEnd (text : List Char) : List Char :=
  (text.reverse.dropWhile isBlank).reverse

/-- The text without the blank characters at either end. -/
def trimBlanks (text : List Char) : List Char :=
  trimEnd (trimStart text)

/-- The text without the blank characters at either end. -/
def trim (text : String) : String :=
  String.ofList (trimBlanks text.toList)

end OpcodeTable.Text
