/-!
# Name characters

Instruction names and the names of encoding schemes are made of ASCII letters, ASCII digits and
underscores.
-/

namespace OpcodeTable.Text

/-- The character may stand in a name. -/
def isNameChar (c : Char) : Bool :=
  c.isAlphanum || c == '_'

def isName (text : List Char) : Bool :=
  !text.isEmpty && text.all isNameChar

end OpcodeTable.Text
