import OpcodeTable.Json.Reader

/-!
# Instruction databases

A database is a list of groups of instruction forms. A group gives its forms a category and, where they
have none of their own, the tags of an extension and of an architecture; it may also mark them as
deprecated. Databases are kept as JSON texts.
-/

namespace OpcodeTable

/-- One form of an instruction, as it is written in a database. -/
structure Form where
  text : String
  encoding : String
  extension : Option String
  architecture : Option String
deriving DecidableEq, Repr

/-- Forms that belong together, with the extension and the architecture of those that name none. -/
structure Group where
  category : String
  extension : Option String
  architecture : Option String
  deprecated : Bool
  forms : List Form
deriving DecidableEq, Repr

structure Database where
  groups : List Group
deriving DecidableEq, Repr

/-- Read a form from a JSON value. -/
def Form.ofJson? (value : Json) : Option Form := do
  match ← value.fields? .refuse ["inst", "op", "ext", "arch"] with
  | [text, encoding, extension, architecture] =>
      return {
        text := ← text.bind Json.text?
        encoding := ← encoding.bind Json.text?
        extension := ← (extension.getD .null).orNull? Json.text?
        architecture := ← (architecture.getD .null).orNull? Json.text? }
  | _ => none

/-- Read a group from a JSON value. -/
def Group.ofJson? (value : Json) : Option Group := do
  match ← value.fields? .refuse ["category", "ext", "arch", "deprecated", "data"] with
  | [category, extension, architecture, deprecated, forms] =>
      return {
        category := ← category.bind Json.text?
        extension := ← (extension.getD .null).orNull? Json.text?
        architecture := ← (architecture.getD .null).orNull? Json.text?
        deprecated := ← (deprecated.getD (.bool false)).bool?
        forms := ← forms.bind (Json.arrayOf? Form.ofJson?) }
  | _ => none

/-- Read a database from a JSON value. -/
def Database.ofJson? (value : Json) : Option Database := do
  match ← value.fields? .refuse ["instructions"] with
  | [groups] => return { groups := ← groups.bind (Json.arrayOf? Group.ofJson?) }
  | _ => none

/-- Read a database from a JSON text. -/
def Database.parse? (text : String) : Option Database :=
  (Json.parse? text).bind Database.ofJson?

end OpcodeTable
