/-!
# Replacement in texts

Every occurrence of a pattern in a text is replaced, from left to right and without overlaps.
-/

namespace OpcodeTable.Text

/-- Replace every occurrence of a pattern that is not empty. -/
def replaceAll (pattern replacement : List Char) : List Char → List Char
  | [] => []
  | c :: rest =>
      if pattern.isPrefixOf (c :: rest) then
        replacement ++ replaceAll pattern replacement (rest.drop (pattern.length - 1))
      else
        c :: replaceAll pattern replacement rest
termination_by text => text.length

end OpcodeTable.Text
