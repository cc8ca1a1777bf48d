import OpcodeTable.Odometer
import OpcodeTable.Table.Basic
import OpcodeTable.TestCase.Catalogue

/-!
# Test cases

A test case is a row of a table with one value for each operand. The cases of a row are all choices of
values from the catalogues of its operands, in lexicographic order, or the first of them up to a limit.
-/

namespace OpcodeTable

/-- A row with a value for each operand. -/
structure TestCase where
  variant : Variant
  row : Nat
  values : List String
deriving DecidableEq, Repr

namespace TestCase

/-- The instruction as it is written in source text. -/
def text (test : TestCase) : String :=
  if test.values.isEmpty then
    test.variant.name
  else
    test.variant.name ++ " " ++ ", ".intercalate test.values

/-- A source file that holds the instruction alone. -/
def source (dialect : Dialect) (test : TestCase) : String :=
  match dialect with
  | .nasm => "bits 64\n" ++ test.text ++ "\n"
  | .gas => ".intel_syntax noprefix\n" ++ test.text ++ "\n"

end TestCase

namespace Variant

/-- The catalogue of each operand. -/
def catalogues (dialect : Dialect) (variant : Variant) : List (List String) :=
  variant.operands.map (Catalogue.values dialect variant)

/-- The odometer that goes through the values of the cases, up to a limit. -/
def odometer (dialect : Dialect) (limit : Option Nat) (variant : Variant) : Odometer String :=
  .start (variant.catalogues dialect) limit

/-- The cases of a variant at a row, up to a limit. -/
def cases (dialect : Dialect) (limit : Option Nat) (row : Nat) (variant : Variant) : List TestCase :=
  (variant.odometer dialect limit).run.map fun values => ⟨variant, row, values⟩

end Variant

/-- The cases of all rows, each up to a limit. -/
def Table.cases (dialect : Dialect) (limit : Option Nat) (table : Table) : List TestCase :=
  table.variants.zipIdx.flatMap fun (variant, row) => variant.cases dialect limit row

end OpcodeTable
