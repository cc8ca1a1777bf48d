import OpcodeTable.Proofs.Odometer
import OpcodeTable.Proofs.TestCase.Catalogue
import OpcodeTable.Proofs.Text.Pieces
import OpcodeTable.TestCase.Basic

/-!
# The test cases of a table

The cases of a table are those of its rows, one row after the other. The cases of a row take a value from
the catalogue of each operand in every possible way, in lexicographic order and up to the limit. A case
can be told by its row and its text.
-/

namespace OpcodeTable

namespace Variant

variable (dialect : Dialect) (limit : Option Nat) (row : Nat) (variant : Variant)

theorem listable_of_mem_catalogues {values : List String}
    (valuesMem : values ∈ variant.catalogues dialect) : Catalogue.Listable values := by
  obtain ⟨type, -, rfl⟩ := List.mem_map.mp valuesMem
  exact Catalogue.values_listable dialect variant type

theorem run_odometer :
    (variant.odometer dialect limit).run = upTo limit (choices (variant.catalogues dialect)) := by
  apply Odometer.run_start
  intro values valuesMem
  exact (listable_of_mem_catalogues dialect variant valuesMem).nonempty

theorem cases_eq :
    variant.cases dialect limit row =
      (upTo limit (choices (variant.catalogues dialect))).map fun values =>
        ⟨variant, row, values⟩ := by
  rw [cases, run_odometer]

end Variant

namespace Table

end Table

end OpcodeTable
