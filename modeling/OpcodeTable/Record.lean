import OpcodeTable.Database
import OpcodeTable.Report
import OpcodeTable.Text.Blank
import OpcodeTable.Text.Name

/-!
# Instruction records

A record is a form with its text split into a name and an operand text, blanks removed around each part,
and the tags of its group filled in.
-/

namespace OpcodeTable

/-- An instruction form with its text split up. The name is in lower case. -/
structure InstructionRecord where
  name : String
  operands : String
  encoding : String
  category : String := ""
  extension : Option String := none
  architecture : Option String := none
  deprecated : Bool := false
deriving DecidableEq, Repr

namespace InstructionRecord

/-- Split the text of a form into a name in lower case and an operand text. The name is the first word;
it has letters, digits and underscores only. -/
def splitText? (text : String) : Option (String × String) :=
  let trimmed := Text.trimBlanks text.toList
  let name := trimmed.takeWhile fun c => !Text.isBlank c
  let operands := Text.trimBlanks (trimmed.dropWhile fun c => !Text.isBlank c)
  if Text.isName name then
    some ((String.ofList name).toLower, String.ofList operands)
  else
    none

/-- The record of a form of a group. A form without a name is skipped. -/
def ofForm (group : Group) (form : Form) : Except SkippedRecord InstructionRecord :=
  match splitText? form.text with
  | none => .error ⟨form.text, form.encoding, .malformedInstruction form.text⟩
  | some (name, operands) =>
      .ok
        { name := name
          operands := operands
          encoding := Text.trim form.encoding
          category := group.category
          extension := form.extension.or group.extension
          architecture := form.architecture.or group.architecture
          deprecated := group.deprecated }

/-- The name and the operand text together. -/
def text (record : InstructionRecord) : String :=
  if record.operands.isEmpty then record.name else record.name ++ " " ++ record.operands

end InstructionRecord

/-- The records of all forms, in order. -/
def Database.records (database : Database) : List (Except SkippedRecord InstructionRecord) :=
  database.groups.flatMap fun group => group.forms.map (InstructionRecord.ofForm group)

end OpcodeTable
