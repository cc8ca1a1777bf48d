import OpcodeTable.Variant.Basic
import Std.Data.HashMap

/-!
# Selection of variants

Several encodings may serve the same key. A selection keeps one for each key: the smallest, and of
equally small ones the first that was offered. The keys stay in the order of their first offer.
-/

namespace OpcodeTable

/-- The variants selected so far, one for each key in the order of the first offers, with the place of each
key. -/
structure Selection where
  variants : Array Variant := #[]
  slots : Std.HashMap VariantKey Nat := {}
  offered : Nat := 0

namespace Selection

/-- The variant with the smaller encoding; of equally small ones the first. -/
def smaller (current offered : Variant) : Variant :=
  if offered.size < current.size then offered else current

def offer (selection : Selection) (variant : Variant) : Selection :=
  match selection.slots[variant.key]? with
  | some slot =>
      { selection with
        variants := selection.variants.modify slot fun current => smaller current variant
        offered := selection.offered + 1 }
  | none =>
      { variants := selection.variants.push variant
        slots := selection.slots.insert variant.key selection.variants.size
        offered := selection.offered + 1 }

/-- Offer variants one after the other. -/
def offerAll (selection : Selection) (variants : List Variant) : Selection :=
  variants.foldl offer selection

/-- The number of keys. -/
def size (selection : Selection) : Nat :=
  selection.variants.size

/-- Nothing was offered yet. -/
def isEmpty (selection : Selection) : Bool :=
  selection.variants.isEmpty

/-- The selected variants, in the order of the first offers of their keys. -/
def toList (selection : Selection) : List Variant :=
  selection.variants.toList

end Selection

end OpcodeTable
