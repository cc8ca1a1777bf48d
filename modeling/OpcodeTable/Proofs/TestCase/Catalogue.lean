import Mathlib.Data.List.Nodup
import OpcodeTable.Proofs.Order.Keys
import OpcodeTable.TestCase.Catalogue

/-!
# Catalogues can be told apart in a line

Every catalogue has a value, no value twice, no empty value, and no value with a comma. So the values of the
operands of an instruction can be read off the text that separates them by commas.
-/

namespace OpcodeTable

namespace Catalogue

/-- Values that can stand in a line separated by commas. -/
structure Listable (values : List String) : Prop where
  nonempty : values ≠ []
  nodup : values.Nodup
  unmarked : ∀ value ∈ values, ',' ∉ value.toList

theorem listable_iff {values : List String} :
    Listable values ↔
      (values ≠ [] ∧ values.Nodup) ∧ (values.all fun value => !value.toList.contains ',') = true := by
  simp only [List.all_eq_true, Bool.not_eq_true', List.contains_eq_mem, decide_eq_false_iff_not]
  constructor
  · rintro ⟨nonempty, nodup, unmarked⟩
    exact ⟨⟨nonempty, nodup⟩, unmarked⟩
  · rintro ⟨⟨nonempty, nodup⟩, unmarked⟩
    exact ⟨nonempty, nodup, unmarked⟩

instance (values : List String) : Decidable (Listable values) :=
  decidable_of_iff _ listable_iff.symm

variable {dialect : Dialect}

private theorem not_mem_sizeWord? {bits : Nat} {word : String}
    (given : dialect.sizeWord? bits = some word) : ',' ∉ word.toList := by
  unfold Dialect.sizeWord? at given
  split at given <;> cases given <;> decide

theorem sized_injective (dialect : Dialect) (bits : Option Nat) :
    Function.Injective (sized dialect bits) := by
  intro address other same
  unfold sized at same
  split at same
  · exact same
  · exact (String.append_right_inj _).mp same

theorem not_mem_sized {bits : Option Nat} {address : String} (unmarked : ',' ∉ address.toList) :
    ',' ∉ (sized dialect bits address).toList := by
  unfold sized
  split
  · exact unmarked
  · rename_i word given
    obtain ⟨size, -, wordEq⟩ := Option.bind_eq_some_iff.mp given
    have wordUnmarked := not_mem_sizeWord? wordEq
    simp [wordUnmarked, unmarked]

theorem Listable.map_sized {addresses : List String} (listable : Listable addresses)
    (dialect : Dialect) (bits : Option Nat) :
    Listable (addresses.map (sized dialect bits)) := by
  refine ⟨?_, listable.nodup.map (sized_injective dialect bits), ?_⟩
  · simpa using listable.nonempty
  · intro value valueMem
    obtain ⟨address, addressMem, rfl⟩ := List.mem_map.mp valueMem
    exact not_mem_sized (listable.unmarked address addressMem)

private theorem not_mem_toDigits (count : Nat) : ',' ∉ Nat.toDigits 10 count := by
  intro marked
  have digit := Nat.isDigit_of_mem_toDigits (by decide) (by decide) marked
  exact absurd digit (by decide)

theorem Listable.map_append {addresses : List String} (listable : Listable addresses)
    (suffix : String) (unmarked : ',' ∉ suffix.toList) : Listable (addresses.map (· ++ suffix)) := by
  refine ⟨?_, listable.nodup.map fun _ _ => (String.append_left_inj suffix).mp, ?_⟩
  · simpa using listable.nonempty
  · intro value valueMem
    obtain ⟨address, addressMem, rfl⟩ := List.mem_map.mp valueMem
    simp [listable.unmarked address addressMem, unmarked]

theorem broadcast_listable (variant : Variant) (element : ElementWidth) :
    Listable (broadcast dialect variant element) := by
  have bare : Listable ["[rax]", "[r9+0x40]"] := by decide
  let count := max (broadcastLength variant / element.bits) 1
  have countUnmarked : ',' ∉ (Text.braced ("1to" ++ toString count)).toList := by
    simp [Text.braced, not_mem_toDigits]
  exact (bare.map_append _ countUnmarked).map_sized dialect (some element.bits)

theorem vectorIndexed_listable (index : IndexWidth) (length : VectorLength) :
    Listable (vectorIndexed dialect index length) := by
  have shapes : Listable (vectorIndexed .nasm index length) := by
    cases index <;> cases length <;> decide
  cases dialect with
  | nasm => exact shapes
  | gas => exact shapes.map_sized .gas (some (indexBits index))

theorem offset_listable (width : Width) : Listable (offset dialect width) := by
  cases dialect with
  | nasm =>
      have addresses : Listable
          (["0x1122334455667788", "0x10"].map fun address => "[qword " ++ address ++ "]") := by
        decide
      exact addresses.map_sized .nasm (some width.bits)
  | gas =>
      have addresses : Listable
          (["0x1122334455667788", "0x10"].map fun address => "ds:" ++ address) := by
        decide
      exact addresses.map_sized .gas (some width.bits)

theorem values_listable (dialect : Dialect) (variant : Variant) (type : OperandType) :
    Listable (values dialect variant type) := by
  cases type with
  | fixed register =>
      change Listable (fixed dialect register)
      cases dialect <;> cases register <;> decide
  | general width =>
      change Listable (general width)
      cases width <;> decide
  | stack => cases dialect <;> exact of_decide_eq_true rfl
  | one => exact of_decide_eq_true rfl
  | immediate width =>
      change Listable (immediate width)
      cases width <;> decide
  | segment => exact of_decide_eq_true rfl
  | control => exact of_decide_eq_true rfl
  | debug => exact of_decide_eq_true rfl
  | memory size =>
      have addressesListable : Listable (addresses dialect) := by cases dialect <;> decide
      exact addressesListable.map_sized dialect size.bits?
  | broadcast element => exact broadcast_listable variant element
  | vectorIndexed index length => exact vectorIndexed_listable index length
  | mmx => exact of_decide_eq_true rfl
  | vector length masking =>
      cases masking with
      | none =>
          change Listable (vector length)
          cases length <;> decide
      | some masking =>
          change Listable (maskedVector length masking)
          cases length <;> cases masking <;> decide
  | mask => exact of_decide_eq_true rfl
  | maskedMask => exact of_decide_eq_true rfl
  | relative reach =>
      change Listable (relative dialect reach)
      cases dialect <;> cases reach <;> decide
  | offset width => exact offset_listable width

theorem sized_ne_empty {bits : Option Nat} {address : String} (written : address ≠ "") :
    sized dialect bits address ≠ "" := by
  unfold sized
  split
  · exact written
  · simp [String.append_eq_empty_iff, written]

/-- A variant without operands and without encoding. -/
private def bareVariant : Variant :=
  ⟨"", [], ⟨"", .empty, [], false, none, none, none, []⟩⟩

theorem empty_not_mem_values (dialect : Dialect) (variant : Variant) (type : OperandType) :
    "" ∉ values dialect variant type := by
  -- Only the values of a broadcast depend on the variant.
  have checked : (OperandType.all.all fun type => !(values dialect bareVariant type).contains "") = true := by
    cases dialect <;> decide +kernel
  have bare : "" ∉ values dialect bareVariant type := by
    simpa using List.all_eq_true.mp checked type (OperandType.mem_all type)
  cases type with
  | broadcast element =>
      intro emptyMem
      obtain ⟨address, -, emptyEq⟩ := List.mem_map.mp emptyMem
      apply sized_ne_empty _ emptyEq
      simp [Text.braced]
  | vector length masking => cases masking <;> exact bare
  | _ => exact bare

end Catalogue

end OpcodeTable
