import OpcodeTable.Script.Pattern
import OpcodeTable.Script.State

/-!
# Fields

What expansion makes of a word before it is cut into fields. A separator that comes from an expansion
outside quotes ends a field; blanks run together and other separators do not. A field whose pattern leads to
files is replaced by their paths.
-/

namespace OpcodeTable.Script

/-- A piece of an expanded word. A field that is only present may be empty. -/
inductive Piece where
  | char (mark : Marked)
  | present
  | separator (c : Char)
  | cut
deriving DecidableEq, Repr

/-- The character separates fields and runs together with others. -/
def isBlankSeparator (c : Char) : Bool :=
  c == ' ' || c == '\t' || c == '\n'

/-- The fields that were cut so far, in reverse. A blank that ended the last field belongs to a separator that
follows it. -/
structure FieldCut where
  finished : List (List Marked) := []
  current : Option (List Marked) := none
  afterBlank : Bool := false
deriving DecidableEq, Repr

/-- End the open field, if there is one. -/
def FieldCut.finish (fields : FieldCut) : FieldCut :=
  match fields.current with
  | some marks => { fields with finished := marks.reverse :: fields.finished, current := none }
  | none => fields

def FieldCut.take (fields : FieldCut) : Piece → FieldCut
  | .char mark => { fields with current := some (mark :: fields.current.getD []), afterBlank := false }
  | .present => { fields with current := some (fields.current.getD []), afterBlank := false }
  | .cut => fields.finish
  | .separator c =>
      if isBlankSeparator c then
        if fields.current.isSome then { fields.finish with afterBlank := true } else fields
      else if fields.afterBlank then
        { fields with afterBlank := false }
      else
        { fields with finished := (fields.current.getD []).reverse :: fields.finished, current := none }

def cutFields (pieces : List Piece) : List (List Marked) :=
  (pieces.foldl FieldCut.take {}).finish.finished.reverse

/-- The marks of pieces that are not cut into fields. -/
def joinPieces (pieces : List Piece) : List Marked :=
  pieces.flatMap fun piece =>
    match piece with
    | .char mark => [mark]
    | .separator c => [⟨c, false⟩]
    | .cut => [⟨' ', true⟩]
    | .present => []

def marksText (marks : List Marked) : Bytes :=
  marks.map Marked.char

/-- The pieces of a value: inside quotes it stays whole. -/
def valuePieces (separators : Bytes) (inQuotes : Bool) (value : Bytes) : List Piece :=
  if inQuotes then
    .present :: value.map fun c => .char ⟨c, true⟩
  else
    value.map fun c => if separators.contains c then .separator c else .char ⟨c, false⟩

def cutSlashes (marks : List Marked) : List (List Marked) :=
  marks.foldr
    (fun mark parts =>
      if mark.char == '/' then
        [] :: parts
      else
        match parts with
        | part :: rest => (mark :: part) :: rest
        | [] => [[mark]])
    [[]]

/-- The texts that the parts of a path lead to. -/
def expandParts (tree : FileTree) : List Bytes → List (List Marked) → List Bytes
  | texts, [] => texts
  | texts, part :: rest =>
      let extended :=
        if hasPattern part then
          texts.flatMap fun text =>
            match tree.resolve (if text.isEmpty then "." else textOf text) with
            | .error _ => []
            | .ok path =>
                let names := ((tree.children path).map bytesOf).filter fun name =>
                  matchesPattern part name && (name.head? != some '.' || (part.head?.map Marked.char) == some '.')
                (names.mergeSort fun left right => !(right < left)).map fun name => text ++ name
        else
          texts.map fun text => text ++ marksText part
      expandParts tree (if rest.isEmpty then extended else extended.map (· ++ ['/'])) rest

/-- The paths that a field leads to, or its own text if there are none. -/
def expandPath (tree : FileTree) (marks : List Marked) : List Bytes :=
  if hasPattern marks then
    let found := (expandParts tree [[]] (cutSlashes marks)).filter fun text => tree.hasPath (textOf text)
    if found.isEmpty then [marksText marks] else found
  else
    [marksText marks]

end OpcodeTable.Script
