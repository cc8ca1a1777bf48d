import OpcodeTable.Table.RowOrder
import OpcodeTable.Variant.Basic

/-!
# Looking up rows

A lookup lists each key with its first row, ascending by key, so that a search can halve the list at
every step.
-/

namespace OpcodeTable

/-- A key with its first row. -/
structure LookupEntry where
  key : VariantKey
  row : Nat
deriving DecidableEq, Repr

namespace LookupEntry

/-- Compare entries by key, then by row. -/
def compare (left right : LookupEntry) : Ordering :=
  (VariantKey.compare left.key right.key).then (compareNat left.row right.row)

/-- The left entry may stand before the right one. -/
def le (left right : LookupEntry) : Bool :=
  (compare left right).isLE

/-- Of neighbours with the same key, only the first; the key of the entry before the list is given. -/
def keepFirst (previous : Option VariantKey) : List LookupEntry → List LookupEntry
  | [] => []
  | entry :: rest =>
      if previous = some entry.key then
        keepFirst previous rest
      else
        entry :: keepFirst (some entry.key) rest

end LookupEntry

/-- Keys with their rows, ascending and each key once. -/
structure Lookup where
  entries : Array LookupEntry := #[]
deriving DecidableEq, Repr

namespace Lookup

/-- The lookup of a list of rows. -/
def ofRows (rows : List Variant) : Lookup :=
  let entries := rows.zipIdx.map fun (variant, row) => LookupEntry.mk variant.key row
  ⟨(LookupEntry.keepFirst none (entries.mergeSort LookupEntry.le)).toArray⟩

/-- Search for a key among the entries from a lower position on and below an upper one. -/
def search (entries : Array LookupEntry) (key : VariantKey) (low high : Nat) : Option Nat :=
  if low < high then
    let middle := low + (high - low) / 2
    match entries[middle]? with
    | none => none
    | some entry =>
        match VariantKey.compare entry.key key with
        | .eq => some entry.row
        | .lt => search entries key (middle + 1) high
        | .gt => search entries key low middle
  else
    none
termination_by high - low

/-- The row of a key. -/
def find? (lookup : Lookup) (key : VariantKey) : Option Nat :=
  search lookup.entries key 0 lookup.entries.size

end Lookup

end OpcodeTable
