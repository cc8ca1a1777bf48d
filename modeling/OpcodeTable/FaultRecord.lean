import OpcodeTable.Build
import OpcodeTable.Pool.Error
import OpcodeTable.Text.Quoted

/-!
# Faults as records

A fault is shown as a record: its kind, and its fields with their names. Texts in it are quoted.
-/

namespace OpcodeTable

/-- A record of a kind with named fields. -/
def recordText (kind : String) (fields : List (String × String)) : String :=
  kind ++ " \x7b " ++ ", ".intercalate (fields.map fun field => field.1 ++ ": " ++ field.2) ++ " \x7d"

/-- The record of a fault in the text of an instruction form. -/
def SyntaxError.record : SyntaxError → String
  | .unknownToken token encoding =>
      recordText "UnknownToken" [("token", Text.quoted token), ("encoding", Text.quoted encoding)]
  | .unknownVectorField family field token =>
      recordText "UnknownVectorField"
        [("family", Text.quoted family), ("field", Text.quoted field), ("token", Text.quoted token)]
  | .invalidFold token => recordText "InvalidFold" [("token", Text.quoted token)]
  | .invalidModRM token => recordText "InvalidModRm" [("token", Text.quoted token)]
  | .missingOpcode encoding => recordText "MissingOpcode" [("encoding", Text.quoted encoding)]
  | .opcodeTooLong encoding limit =>
      recordText "OpcodeTooLong" [("encoding", Text.quoted encoding), ("max", toString limit)]
  | .missingOpcodeMap token => recordText "MissingOpcodeMap" [("token", Text.quoted token)]
  | .unknownOperand token => recordText "UnknownOperand" [("token", Text.quoted token)]
  | .emptyOperand token => recordText "EmptyOperand" [("token", Text.quoted token)]
  | .danglingMask token => recordText "DanglingMask" [("token", Text.quoted token)]
  | .malformedInstruction text => recordText "MalformedInstruction" [("inst", Text.quoted text)]

/-- The record of a fault in the layout of a table. -/
def TableError.record : TableError → String
  | .unrankedOperand operand => recordText "UnrankedOperand" [("operand", Text.quoted operand)]
  | .linkOutOfBounds row target rows =>
      recordText "LinkOutOfBounds"
        [("row", toString row), ("target", toString target), ("len", toString rows)]
  | .tooManyRows rows limit =>
      recordText "TableTooLarge" [("rows", toString rows), ("max", toString limit)]

/-- The record of a fault of a build. A database that cannot be decoded has none. -/
def BuildError.record? : BuildError → Option String
  | .undecodable => none
  | .record text fault =>
      some (recordText "Parse" [("record", Text.quoted text), ("source", fault.record)])
  | .table fault => some ("Schema(" ++ fault.record ++ ")")

/-- The record of a fault of a validation run. -/
def PoolError.record : PoolError → String
  | .spawn worker reason =>
      recordText "Spawn" [("worker", toString worker), ("reason", Text.quoted reason)]
  | .crashed worker => recordText "WorkerPanicked" [("worker", toString worker)]
  | .missingResults worker => recordText "MissingResults" [("worker", toString worker)]
  | .launch worker program reason =>
      recordText "Launch"
        [("worker", toString worker), ("program", Text.quoted program), ("reason", Text.quoted reason)]
  | .unexpectedExit worker program status test =>
      recordText "UnexpectedExit"
        [("worker", toString worker), ("program", Text.quoted program),
          ("status", Text.quoted status.text), ("test", Text.quoted test)]
  | .scratch worker reason =>
      recordText "Scratch" [("worker", toString worker), ("reason", Text.quoted reason)]

end OpcodeTable
