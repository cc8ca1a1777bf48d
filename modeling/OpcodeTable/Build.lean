import OpcodeTable.Encoding.Reader
import OpcodeTable.Operand.Expansion
import OpcodeTable.Options.Basic
import OpcodeTable.Record
import OpcodeTable.Table.Basic
import OpcodeTable.Variant.Selection

/-!
# Building tables

A table is built from the records of a database. Records that the options do not ask for are filtered
out; the texts of the others are read, and every operand tuple of a record is offered as a variant. A
record that cannot be read is skipped, or ends the build if the options say so.
-/

namespace OpcodeTable

/-- Why a build ended without a table. -/
inductive BuildError where
  | undecodable
  | record (text : String) (fault : SyntaxError)
  | table (fault : TableError)
deriving DecidableEq, Repr

/-- The text that reports an error. -/
def BuildError.message : BuildError → String
  | .undecodable => "malformed instruction database"
  | .record text fault => "record '" ++ text ++ "': " ++ fault.message
  | .table fault => fault.message

/-- A table with what was left out of it. -/
structure TableBuild where
  table : Table
  report : Report

/-- The variants selected so far, and what was left out of them. -/
structure BuildState where
  selection : Selection := {}
  report : Report := {}

/-- The options ask for a record. -/
def BuildOptions.keeps (options : BuildOptions) (record : InstructionRecord) : Bool :=
  (!record.deprecated || options.includeDeprecated) && options.target.accepts record.architecture

namespace InstructionRecord

/-- The variants of a record, or what is wrong with its texts; the encoding is read first. -/
def variants (record : InstructionRecord) : Except SyntaxError (List Variant) :=
  match Encoding.parse record.encoding with
  | .error fault => .error fault
  | .ok encoding =>
      match (Operand.expand record.operands).result with
      | .error fault => .error fault
      | .ok tuples => .ok (tuples.map fun operands => ⟨record.name, operands, encoding⟩)

/-- The operand words of a record that name no type. They are looked at only if the encoding could be
read. -/
def unknownWords (record : InstructionRecord) : List String :=
  match Encoding.parse record.encoding with
  | .error _ => []
  | .ok _ => (Operand.expand record.operands).unknown

/-- A record that could not be read. -/
def skip (record : InstructionRecord) (fault : SyntaxError) : SkippedRecord :=
  ⟨record.text, record.encoding, fault⟩

end InstructionRecord

namespace Report

/-- Skip a record that could not be read, or end the build. -/
def reject (options : BuildOptions) (report : Report) (record : SkippedRecord) :
    Except BuildError Report :=
  if options.strict then
    .error (.record record.text record.fault)
  else
    .ok (report.addSkipped record)

end Report

namespace BuildState

/-- Take one record into the build. -/
def add (options : BuildOptions) (state : BuildState) (record : InstructionRecord) :
    Except BuildError BuildState :=
  if options.keeps record then
    let report := state.report.addUnknown record.unknownWords
    match record.variants with
    | .ok variants => .ok ⟨state.selection.offerAll variants, report⟩
    | .error fault =>
        match report.reject options (record.skip fault) with
        | .error failure => .error failure
        | .ok report => .ok ⟨state.selection, report⟩
  else
    .ok { state with report := state.report.addFiltered }

/-- Take records into the build, one after the other. -/
def addAll (options : BuildOptions) : BuildState → List InstructionRecord → Except BuildError BuildState
  | state, [] => .ok state
  | state, record :: rest =>
      match state.add options record with
      | .error failure => .error failure
      | .ok state => addAll options state rest

end BuildState

/-- Build a table from records, going on with a report. -/
def buildRecords (options : BuildOptions) (report : Report) (records : List InstructionRecord) :
    Except BuildError TableBuild :=
  match BuildState.addAll options { report := report } records with
  | .error failure => .error failure
  | .ok state =>
      match Table.ofVariants state.selection.toList with
      | .error fault => .error (.table fault)
      | .ok table => .ok ⟨table, state.report⟩

/-- Reject the forms that could not be split, one after the other, and gather the records of the
others. -/
def gatherRecords (options : BuildOptions) :
    Report → List (Except SkippedRecord InstructionRecord) →
      Except BuildError (Report × List InstructionRecord)
  | report, [] => .ok (report, [])
  | report, .ok record :: rest =>
      match gatherRecords options report rest with
      | .error failure => .error failure
      | .ok (report, records) => .ok (report, record :: records)
  | report, .error skipped :: rest =>
      match report.reject options skipped with
      | .error failure => .error failure
      | .ok report => gatherRecords options report rest

def Database.build (options : BuildOptions) (database : Database) : Except BuildError TableBuild :=
  match gatherRecords options {} database.records with
  | .error failure => .error failure
  | .ok (report, records) => buildRecords options report records

/-- Build a table from the text of a database. -/
def buildText (options : BuildOptions) (text : String) : Except BuildError TableBuild :=
  match Database.parse? text with
  | none => .error .undecodable
  | some database => database.build options

end OpcodeTable
