import OpcodeTable.Proofs.Build.Contents
import OpcodeTable.Proofs.Build.Rejections
import OpcodeTable.Proofs.Report

/-!
# Builds of the same records in different orders

The order of the records decides which of several equally small encodings a key gets, and in which order
rejections are reported. It decides nothing else: the number of rows, the keys, the sizes of their
encodings, the words that name no type and the number of filtered records are the same for any order.
-/

namespace OpcodeTable

theorem distinct_perm {Element : Type} [DecidableEq Element] {elements others : List Element}
    (same : elements.Perm others) : (distinct elements).Perm (distinct others) := by
  rw [List.perm_ext_iff_of_nodup (nodup_distinct elements) (nodup_distinct others)]
  intro element
  rw [mem_distinct, mem_distinct, same.mem_iff]

namespace Selection

variable {offers others : List Variant}

theorem size_le_of_best?_perm {key : VariantKey} {variant other : Variant}
    (same : offers.Perm others) (best : best? offers key = some variant)
    (otherBest : best? others key = some other) : variant.size ≤ other.size := by
  have otherMem := List.argmin_mem otherBest
  have sameKey := same.filter fun offer => offer.key = key
  exact List.le_of_mem_argmin (sameKey.mem_iff.mpr otherMem) best

variable {selection otherSelection : Selection}

theorem Holds.keys_perm (holds : selection.Holds offers) (otherHolds : otherSelection.Holds others)
    (same : offers.Perm others) :
    (selection.toList.map Variant.key).Perm (otherSelection.toList.map Variant.key) := by
  rw [holds.keys_eq, otherHolds.keys_eq]
  exact distinct_perm (same.map Variant.key)

theorem Holds.size_eq_of_key_eq (holds : selection.Holds offers)
    (otherHolds : otherSelection.Holds others) (same : offers.Perm others)
    {variant other : Variant} (variantMem : variant ∈ selection.toList)
    (otherMem : other ∈ otherSelection.toList) (keyEq : variant.key = other.key) :
    variant.size = other.size := by
  have best := holds.best variant variantMem
  have otherBest := otherHolds.best other otherMem
  rw [← keyEq] at otherBest
  apply Nat.le_antisymm
  · exact size_le_of_best?_perm same best otherBest
  · exact size_le_of_best?_perm same.symm otherBest best

end Selection

namespace Report

/-- Reports of the same records in different orders differ only in the order of what was skipped. -/
theorem foldl_account_perm {options : BuildOptions} {report : Report}
    {records others : List InstructionRecord} (same : records.Perm others)
    (ascending : Text.Ascending report.unknown) :
    (records.foldl (account options) report).filtered =
        (others.foldl (account options) report).filtered ∧
      (records.foldl (account options) report).unknown =
        (others.foldl (account options) report).unknown ∧
      (records.foldl (account options) report).skipped.Perm
        (others.foldl (account options) report).skipped := by
  refine ⟨?_, ?_, ?_⟩
  · rw [filtered_foldl_account, filtered_foldl_account, same.countP_eq]
  · rw [unknown_foldl_account, unknown_foldl_account]
    apply Text.Ascending.eq_of_mem_iff
    · exact unknown_addUnknown_ascending ascending _
    · exact unknown_addUnknown_ascending ascending _
    · intro word
      have sameWords := same.flatMap_right (InstructionRecord.reportedWords options)
      rw [mem_unknown_addUnknown, mem_unknown_addUnknown, sameWords.mem_iff]
  · rw [skipped_foldl_account, skipped_foldl_account]
    exact (same.filterMap (InstructionRecord.rejection? options)).append_left report.skipped

end Report

/-- A lenient build lays out what it selected from all that the records offer, and fails only if that is
too much. -/
theorem exists_selection_of_lenient {options : BuildOptions} (lenient : options.strict = false)
    (report : Report) (records : List InstructionRecord) :
    ∃ selection : Selection,
      selection.Holds (records.flatMap (InstructionRecord.offers options)) ∧
        buildRecords options report records =
          if selection.toList.length ≤ Link.rowLimit then
            .ok ⟨.ofRows (selection.toList.mergeSort Variant.rowLE),
              records.foldl (Report.account options) report⟩
          else
            .error (.table (.tooManyRows selection.toList.length Link.rowLimit)) := by
  refine ⟨_, Selection.offerAll_holds _, ?_⟩
  rw [buildRecords_lenient lenient]
  simp only [Table.ofVariants_eq]
  split_ifs with fits
  · rfl
  · rfl

/-- Two lenient builds of the same records in different orders either both refuse the same number of
rows, or both give a table. Then the tables have the same keys with encodings of the same sizes, and the
reports count the same filtered records, have the same words, and have the same rejections up to
order. -/
theorem buildRecords_perm {options : BuildOptions} (lenient : options.strict = false)
    {records others : List InstructionRecord} (same : records.Perm others) :
    (∃ count > 16383,
      buildRecords options {} records = .error (.table (.tooManyRows count 16383)) ∧
        buildRecords options {} others = .error (.table (.tooManyRows count 16383))) ∨
    ∃ build other, buildRecords options {} records = .ok build ∧
      buildRecords options {} others = .ok other ∧
      (build.table.variants.map Variant.key).Perm (other.table.variants.map Variant.key) ∧
      (∀ variant ∈ build.table.variants, ∀ otherVariant ∈ other.table.variants,
        variant.key = otherVariant.key → variant.encoding.size = otherVariant.encoding.size) ∧
      build.report.filtered = other.report.filtered ∧
      build.report.unknown = other.report.unknown ∧
      build.report.skipped.Perm other.report.skipped := by
  obtain ⟨selection, holds, built⟩ := exists_selection_of_lenient lenient {} records
  obtain ⟨otherSelection, otherHolds, otherBuilt⟩ := exists_selection_of_lenient lenient {} others
  have sameOffers := same.flatMap_right (InstructionRecord.offers options)
  have sameKeys := holds.keys_perm otherHolds sameOffers
  have sameCount : selection.toList.length = otherSelection.toList.length := by
    simpa using sameKeys.length_eq
  have rowsPerm (chosen : Selection) :
      (chosen.toList.mergeSort Variant.rowLE).Perm chosen.toList := List.mergeSort_perm _ _
  rw [built, otherBuilt, ← sameCount]
  by_cases fits : selection.toList.length ≤ Link.rowLimit
  · right
    rw [if_pos fits, if_pos fits]
    refine ⟨_, _, rfl, rfl, ?_, ?_, Report.foldl_account_perm same List.Pairwise.nil⟩
    · rw [Table.variants_ofRows, Table.variants_ofRows]
      have rowKeys := (rowsPerm selection).map Variant.key
      have otherRowKeys := (rowsPerm otherSelection).map Variant.key
      exact rowKeys.trans (sameKeys.trans otherRowKeys.symm)
    · intro variant variantMem otherVariant otherMem keyEq
      rw [Table.variants_ofRows, (rowsPerm _).mem_iff] at variantMem otherMem
      exact holds.size_eq_of_key_eq otherHolds sameOffers variantMem otherMem keyEq
  · left
    rw [if_neg fits, if_neg fits]
    exact ⟨_, Nat.lt_of_not_le fits, rfl, rfl⟩

/-- Two records with equally small encodings for one key, and one that cannot be read. -/
def tiedRecords : List InstructionRecord :=
  [{ name := "nop", operands := "", encoding := "90" },
    { name := "nop", operands := "", encoding := "91" },
    { name := "mov", operands := "r32, bogus", encoding := "B8+r" }]

theorem buildRecords_perm_tied :
    ∃ build other, buildRecords {} {} tiedRecords = .ok build ∧
      buildRecords {} {} tiedRecords.reverse = .ok other ∧
      (∀ variant ∈ build.table.variants, ∀ otherVariant ∈ other.table.variants,
        variant.key = otherVariant.key → variant.encoding.size = otherVariant.encoding.size) ∧
      build.report.unknown = other.report.unknown ∧
      build.report.skipped.Perm other.report.skipped := by
  obtain ⟨built, ok⟩ : ∃ build, buildRecords {} {} tiedRecords = .ok build :=
    exists_buildRecords rfl {} (by decide +kernel)
  have lenient : ({} : BuildOptions).strict = false := rfl
  rcases buildRecords_perm lenient (List.reverse_perm tiedRecords).symm with
    ⟨count, -, refused, -⟩ | ⟨build, other, first, second, -, sizes, -, words, rejections⟩
  · rw [ok] at refused
    cases refused
  · exact ⟨build, other, first, second, sizes, words, rejections⟩

end OpcodeTable
