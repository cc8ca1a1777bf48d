/-!
# Errors of table construction

What can keep variants from being laid out as a table, and how each fault reads.
-/

namespace OpcodeTable

/-- A fault in the layout of a table. -/
inductive TableError where
  | unrankedOperand (operand : String)
  | linkOutOfBounds (row target rows : Nat)
  | tooManyRows (rows limit : Nat)
deriving DecidableEq, Repr

/-- The text that reports a fault. -/
def TableError.message : TableError → String
  | .unrankedOperand operand =>
      "operand type '" ++ operand ++ "' has no rank in the operand order table"
  | .linkOutOfBounds row target rows =>
      "special link of row " ++ toString row ++ " targets row " ++ toString target ++
        ", table has " ++ toString rows ++ " rows"
  | .tooManyRows rows limit =>
      "table has " ++ toString rows ++ " rows, link index space holds at most " ++ toString limit

end OpcodeTable
