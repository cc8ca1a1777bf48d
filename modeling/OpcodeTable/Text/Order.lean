/-!
# The order of texts

Texts are ordered by the code points of their characters, and a text before all its continuations.
This is also the order of their UTF-8 bytes.
-/

namespace OpcodeTable.Text

/-- Compare two texts character by character. -/
def compareChars : List Char → List Char → Ordering
  | [], [] => .eq
  | [], _ :: _ => .lt
  | _ :: _, [] => .gt
  | left :: leftRest, right :: rightRest =>
      if left.toNat < right.toNat then
        .lt
      else if right.toNat < left.toNat then
        .gt
      else
        compareChars leftRest rightRest

/-- Compare two texts. -/
def compare (left right : String) : Ordering :=
  compareChars left.toList right.toList

/-- Add a text to an ascending list without repetitions. -/
def insertAscending (text : String) : List String → List String
  | [] => [text]
  | other :: rest =>
      match compare text other with
      | .lt => text :: other :: rest
      | .eq => other :: rest
      | .gt => other :: insertAscending text rest

end OpcodeTable.Text
