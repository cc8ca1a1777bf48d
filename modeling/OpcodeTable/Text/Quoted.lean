import OpcodeTable.Text.Shown

/-!
# Quoted text

A text between double quotes, in which the quote, the backslash and every character that is not shown as it
is are escaped.
-/

namespace OpcodeTable.Text

/-- The character by its number in hexadecimal digits. -/
def numberEscape (c : Char) : List Char :=
  "\\u\x7b".toList ++ Nat.toDigits 16 c.toNat ++ "\x7d".toList

def quoteChar (c : Char) : List Char :=
  if c.toNat = 0 then "\\0".toList
  else if c = '\t' then "\\t".toList
  else if c = '\n' then "\\n".toList
  else if c = '\r' then "\\r".toList
  else if c = '\"' then "\\\"".toList
  else if c = '\\' then "\\\\".toList
  else if isShown c then [c]
  else numberEscape c

def quoted (text : String) : String :=
  "\"" ++ String.ofList (text.toList.flatMap quoteChar) ++ "\""

end OpcodeTable.Text
