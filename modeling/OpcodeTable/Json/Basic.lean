/-!
# JSON values

The values of the data format that databases and table records are kept in. A text escape can name half
of a surrogate pair without the other half; such a text has no characters, but it is still a
well-formed part of a document, so it has a place here.
-/

namespace OpcodeTable

/-- A JSON value. A number of digits alone is read, and any other is kept as it is written. A text whose
escapes name no characters has no value, and the keys of an object may repeat. -/
inductive Json where
  | null
  | bool (value : Bool)
  | natural (value : Nat)
  | number (literal : List Char)
  | text (value : Option String)
  | array (items : List Json)
  | object (members : List (Option String × Json))

namespace Json

def text? : Json → Option String
  | .text value => value
  | _ => none

/-- The truth value that a value is. -/
def bool? : Json → Option Bool
  | .bool value => some value
  | _ => none

/-- The number below a bound that a value is. -/
def natural? (bound : Nat) : Json → Option Nat
  | .natural value => if value < bound then some value else none
  | _ => none

/-- The list that a value is, with every item read the same way. -/
def arrayOf? {α : Type} (read : Json → Option α) : Json → Option (List α)
  | .array items => items.mapM read
  | _ => none

/-- Null, or a value that is read. -/
def orNull? {α : Type} (read : Json → Option α) : Json → Option (Option α)
  | .null => some none
  | value => (read value).map some

/-- What to do with keys that a structure does not have. -/
inductive ExtraKeys where
  | refuse | ignore
deriving DecidableEq, Repr

/-- The key is well-formed and may stand in a structure with these fields. -/
def allowsKey (extra : ExtraKeys) (fields : List String) : Option String → Bool
  | none => false
  | some key => extra == .ignore || fields.contains key

/-- The values of the fields of a structure, nothing where a field is missing. A structure is written
as an object without repeated fields, or as an array of its fields in order that may end early. -/
def fields? (extra : ExtraKeys) (fields : List String) : Json → Option (List (Option Json))
  | .array items =>
      if items.length ≤ fields.length then
        some (items.map some ++ List.replicate (fields.length - items.length) none)
      else
        none
  | .object members =>
      let keys := members.map Prod.fst
      if keys.all (allowsKey extra fields) && fields.all (fun field => keys.count (some field) ≤ 1) then
        some (fields.map fun field => members.lookup (some field))
      else
        none
  | _ => none

end Json

end OpcodeTable
