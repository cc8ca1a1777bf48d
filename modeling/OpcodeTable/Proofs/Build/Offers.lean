import Mathlib.Tactic.SplitIfs
import OpcodeTable.Build

/-!
# What records offer to a table

A record that the options ask for and whose texts can be read offers one variant for each of its operand
tuples; any other record offers nothing. A build that goes through all records has selected from all that
they offer, in the order of the records.
-/

namespace OpcodeTable

/-- A record gives an encoding for a key: the options ask for the record, it has the name of the key, its
encoding text reads as the encoding, and the operand types of the key are among the tuples of its operand
text. -/
structure BuildOptions.Gives (options : BuildOptions) (record : InstructionRecord)
    (key : VariantKey) (encoding : Encoding) : Prop where
  wanted : record.deprecated = false ∨ options.includeDeprecated = true
  accepted : options.target.accepts record.architecture = true
  name_eq : record.name = key.name
  parsed : Encoding.parse record.encoding = .ok encoding
  expanded : ∃ tuples, (Operand.expand record.operands).result = .ok tuples ∧ key.operands ∈ tuples

namespace InstructionRecord

/-- The variants that a record offers. -/
def offers (options : BuildOptions) (record : InstructionRecord) : List Variant :=
  if options.keeps record then
    match record.variants with
    | .ok variants => variants
    | .error _ => []
  else
    []

theorem variants_eq_ok_iff {record : InstructionRecord} {variants : List Variant} :
    record.variants = .ok variants ↔
      ∃ encoding tuples, Encoding.parse record.encoding = .ok encoding ∧
        (Operand.expand record.operands).result = .ok tuples ∧
          variants = tuples.map fun operands => ⟨record.name, operands, encoding⟩ := by
  unfold InstructionRecord.variants
  cases Encoding.parse record.encoding with
  | error fault => simp
  | ok encoding =>
      cases (Operand.expand record.operands).result with
      | error fault => simp
      | ok tuples => simp [eq_comm]

private theorem keeps_iff {options : BuildOptions} {record : InstructionRecord} :
    options.keeps record = true ↔
      (record.deprecated = false ∨ options.includeDeprecated = true) ∧
        options.target.accepts record.architecture = true := by
  simp [BuildOptions.keeps]

private theorem mem_offers_iff_variants {options : BuildOptions} {record : InstructionRecord}
    {variant : Variant} :
    variant ∈ record.offers options ↔
      options.keeps record = true ∧
        ∃ variants, record.variants = .ok variants ∧ variant ∈ variants := by
  unfold offers
  split_ifs with kept
  · cases record.variants with
    | ok variants => simp [kept]
    | error fault => simp
  · simp [kept]

/-- The variants that a record offers are those for whose key it gives their encoding. -/
theorem mem_offers_iff {options : BuildOptions} {record : InstructionRecord} {variant : Variant} :
    variant ∈ record.offers options ↔ options.Gives record variant.key variant.encoding := by
  rw [mem_offers_iff_variants, keeps_iff]
  constructor
  · rintro ⟨⟨wanted, accepted⟩, variants, variantsEq, variantMem⟩
    obtain ⟨encoding, tuples, parsed, expanded, rfl⟩ := variants_eq_ok_iff.mp variantsEq
    obtain ⟨operands, operandsMem, rfl⟩ := List.mem_map.mp variantMem
    exact ⟨wanted, accepted, rfl, parsed, tuples, expanded, operandsMem⟩
  · rintro ⟨wanted, accepted, nameEq, parsed, tuples, expanded, operandsMem⟩
    refine ⟨⟨wanted, accepted⟩, _, variants_eq_ok_iff.mpr ⟨_, tuples, parsed, expanded, rfl⟩, ?_⟩
    apply List.mem_map.mpr
    exact ⟨variant.operands, operandsMem, by rw [nameEq]; rfl⟩

theorem mem_keys_offers_iff {options : BuildOptions} {records : List InstructionRecord}
    {key : VariantKey} :
    key ∈ (records.flatMap (offers options)).map Variant.key ↔
      ∃ record ∈ records, ∃ encoding, options.Gives record key encoding := by
  simp only [List.mem_map, List.mem_flatMap]
  constructor
  · rintro ⟨variant, ⟨record, recordMem, offered⟩, rfl⟩
    exact ⟨record, recordMem, variant.encoding, mem_offers_iff.mp offered⟩
  · rintro ⟨record, recordMem, encoding, gives⟩
    exact ⟨⟨key.name, key.operands, encoding⟩, ⟨record, recordMem, mem_offers_iff.mpr gives⟩, rfl⟩

end InstructionRecord

namespace BuildState

variable {options : BuildOptions}

theorem add_selection {state next : BuildState} {record : InstructionRecord}
    (added : state.add options record = .ok next) :
    next.selection = state.selection.offerAll (record.offers options) := by
  unfold add at added
  unfold InstructionRecord.offers
  split_ifs at added ⊢ with kept
  · cases variantsEq : record.variants with
    | ok variants =>
        simp only [variantsEq, Except.ok.injEq] at added
        rw [← added]
    | error fault =>
        -- A record that cannot be read is either reported or ends the build.
        simp only [variantsEq] at added
        split at added
        · cases added
        · cases added
          rfl
  · cases added
    rfl

theorem exists_add (lenient : options.strict = false) (state : BuildState)
    (record : InstructionRecord) : ∃ next, state.add options record = .ok next := by
  unfold add
  split_ifs
  · cases record.variants with
    | ok variants => exact ⟨_, rfl⟩
    | error fault => simp [Report.reject, lenient]
  · exact ⟨_, rfl⟩

/-- Unless the options are strict, no record ends the build. -/
theorem exists_addAll (lenient : options.strict = false) (state : BuildState)
    (records : List InstructionRecord) : ∃ final, addAll options state records = .ok final := by
  induction records generalizing state with
  | nil => exact ⟨state, rfl⟩
  | cons record rest ih =>
      obtain ⟨next, added⟩ := exists_add lenient state record
      rw [addAll, added]
      exact ih next

/-- A build that goes through all records has been offered the variants of all of them. -/
theorem addAll_selection {state final : BuildState} {records : List InstructionRecord}
    (added : addAll options state records = .ok final) :
    final.selection =
      state.selection.offerAll (records.flatMap (InstructionRecord.offers options)) := by
  induction records generalizing state with
  | nil =>
      cases added
      rfl
  | cons record rest ih =>
      rw [addAll] at added
      cases step : state.add options record with
      | error failure =>
          rw [step] at added
          cases added
      | ok next =>
          rw [step] at added
          rw [ih added, add_selection step, List.flatMap_cons, Selection.offerAll,
            Selection.offerAll, Selection.offerAll, List.foldl_append]

end BuildState

end OpcodeTable
