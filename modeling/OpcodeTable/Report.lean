import OpcodeTable.SyntaxError
import OpcodeTable.Text.Order

/-!
# Reports

A report tells what a table build left out: operand words that name no type, records whose texts could
not be read, and the number of records that the configuration does not ask for.
-/

namespace OpcodeTable

/-- A record whose text could not be read. -/
structure SkippedRecord where
  text : String
  encoding : String
  fault : SyntaxError
deriving DecidableEq, Repr

/-- What a table build left out: operand words that name no type, ascending and each once, records that could
not be read, in order, and the number of records that the configuration does not ask for. -/
structure Report where
  unknown : List String := []
  skipped : List SkippedRecord := []
  filtered : Nat := 0
deriving DecidableEq, Repr

namespace Report

/-- Add operand words that name no type. -/
def addUnknown (report : Report) (words : List String) : Report :=
  { report with unknown := words.foldl (fun known word => Text.insertAscending word known) report.unknown }

/-- Add a record that could not be read. -/
def addSkipped (report : Report) (record : SkippedRecord) : Report :=
  { report with skipped := report.skipped ++ [record] }

/-- Count one more record that the configuration does not ask for. -/
def addFiltered (report : Report) : Report :=
  { report with filtered := report.filtered + 1 }

/-- Every record could be read. Filtered records do not count against this. -/
def isClean (report : Report) : Bool :=
  report.unknown.isEmpty && report.skipped.isEmpty

/-- The report as one line. -/
def display (report : Report) : String :=
  let counts :=
    toString report.skipped.length ++ " skipped, " ++ toString report.filtered ++ " filtered, " ++
      toString report.unknown.length ++ " unknown operand types"
  if report.unknown.isEmpty then
    counts
  else
    counts ++ " (" ++ ", ".intercalate report.unknown ++ ")"

end Report

end OpcodeTable
