import OpcodeTable.Table.Link
import OpcodeTable.Table.Lookup
import OpcodeTable.Table.RowOrder

/-!
# Encoding tables

A table holds variants as ordered rows, the links between the rows, and a lookup from keys to rows.
-/

namespace OpcodeTable

/-- A variant, with the row to use instead when an operand fits. -/
structure TableRow where
  variant : Variant
  link : Option Link
deriving DecidableEq, Repr

def TableRow.packedLink (row : TableRow) : Nat :=
  Link.packOption row.link

/-- Ordered rows with their links and a lookup. -/
structure Table where
  rows : List TableRow := []
  lookup : Lookup := {}
deriving DecidableEq, Repr

namespace Table

/-- The table of a list of variants. -/
def ofVariants (variants : List Variant) : Except TableError Table :=
  match Variant.sortRows variants with
  | .error fault => .error fault
  | .ok ordered =>
      match rowLinks ordered with
      | .error fault => .error fault
      | .ok links => .ok ⟨ordered.zipWith TableRow.mk links, .ofRows ordered⟩

/-- The number of rows. -/
def size (table : Table) : Nat :=
  table.rows.length

/-- There are no rows. -/
def isEmpty (table : Table) : Bool :=
  table.rows.isEmpty

def row? (table : Table) (position : Nat) : Option TableRow :=
  table.rows[position]?

/-- The variants, in the order of their rows. -/
def variants (table : Table) : List Variant :=
  table.rows.map TableRow.variant

/-- The row of a key. -/
def find? (table : Table) (key : VariantKey) : Option Nat :=
  table.lookup.find? key

def linkedRow? (table : Table) (position : Nat) : Option TableRow :=
  ((table.row? position).bind TableRow.link).bind fun link => table.row? link.row

end Table

end OpcodeTable
