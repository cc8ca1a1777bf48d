import OpcodeTable.Proofs.Build.Offers
import OpcodeTable.Proofs.Selection
import OpcodeTable.Proofs.Table.Layout
import OpcodeTable.Proofs.Table.Lookup

/-!
# What a built table contains

A table built from records has exactly the keys that the records give encodings for, each in one row,
which looking up the key finds. The encoding in this row is the smallest that any record gives for the
key, and of equally small ones that of the earliest record.
-/

namespace OpcodeTable

/-- An element of the lists of several sources stands in the list of one source, behind the lists of the
sources before and in front of those of the sources after it. -/
private theorem exists_source_of_flatMap_eq {Source Element : Type*} {list : Source → List Element}
    {sources : List Source} {before after : List Element} {element : Element}
    (split : sources.flatMap list = before ++ element :: after) :
    ∃ earlier source later, sources = earlier ++ source :: later ∧ element ∈ list source ∧
      (∀ other ∈ earlier, list other ⊆ before) ∧ ∀ other ∈ later, list other ⊆ after := by
  induction sources generalizing before with
  | nil => simp at split
  | cons source rest ih =>
      rw [List.flatMap_cons] at split
      rcases List.append_eq_append_iff.mp split with
        ⟨middle, beforeEq, restEq⟩ | ⟨middle, sourceEq, afterEq⟩
      · obtain ⟨earlier, found, later, restSplit, elementMem, earlierSubset, laterSubset⟩ := ih restEq
        refine ⟨source :: earlier, found, later, by rw [restSplit]; rfl, elementMem, ?_, laterSubset⟩
        rw [beforeEq]
        rintro other (_ | ⟨_, otherMem⟩)
        · exact List.subset_append_left _ _
        · exact List.subset_append_of_subset_right _ (earlierSubset other otherMem)
      · cases middle with
        | nil =>
            -- The element is the first of the later sources; those before it have nothing left.
            obtain ⟨earlier, found, later, restSplit, elementMem, earlierSubset, laterSubset⟩ :=
              @ih [] afterEq.symm
            refine ⟨source :: earlier, found, later, by rw [restSplit]; rfl, elementMem, ?_, laterSubset⟩
            rintro other (_ | ⟨_, otherMem⟩)
            · rw [sourceEq, List.append_nil]
              exact List.Subset.refl before
            · exact List.Subset.trans (earlierSubset other otherMem) (List.nil_subset before)
        | cons head tail =>
            obtain ⟨rfl, tailEq⟩ := List.cons.inj afterEq
            refine ⟨[], source, rest, rfl, by simp [sourceEq], by simp, ?_⟩
            intro other otherMem member memberOf
            rw [tailEq]
            exact List.mem_append_right tail (List.mem_flatMap.mpr ⟨other, otherMem, memberOf⟩)

/-- The variant to keep for a key comes from a record such that every earlier one gives a larger
encoding for the key, or none, and no later one gives a smaller one. -/
private theorem exists_record_of_best? {options : BuildOptions} {records : List InstructionRecord}
    {key : VariantKey} {variant : Variant}
    (best : Selection.best? (records.flatMap (InstructionRecord.offers options)) key = some variant) :
    ∃ earlier record later, records = earlier ++ record :: later ∧
      options.Gives record key variant.encoding ∧
      (∀ other ∈ earlier, ∀ encoding, options.Gives other key encoding →
        variant.encoding.size < encoding.size) ∧
      ∀ other ∈ later, ∀ encoding, options.Gives other key encoding →
        variant.encoding.size ≤ encoding.size := by
  obtain ⟨before, after, split, beforeLarger, afterNotSmaller⟩ := exists_append_of_argmin best
  rw [List.filter_flatMap] at split
  obtain ⟨earlier, record, later, recordsEq, variantMem, earlierSubset, laterSubset⟩ :=
    exists_source_of_flatMap_eq split
  obtain ⟨offered, keyEq⟩ := List.mem_filter.mp variantMem
  have variantKey : variant.key = key := of_decide_eq_true keyEq
  have mem_filter_of_gives {other : InstructionRecord} {encoding : Encoding}
      (gives : options.Gives other key encoding) :
      (⟨key.name, key.operands, encoding⟩ : Variant) ∈
        (other.offers options).filter fun offer => offer.key = key :=
    List.mem_filter.mpr ⟨InstructionRecord.mem_offers_iff.mpr gives, decide_eq_true rfl⟩
  refine ⟨earlier, record, later, recordsEq, ?_, ?_, ?_⟩
  · rw [← variantKey]
    exact InstructionRecord.mem_offers_iff.mp offered
  · intro other otherMem encoding gives
    exact beforeLarger _ (earlierSubset other otherMem (mem_filter_of_gives gives))
  · intro other otherMem encoding gives
    exact afterNotSmaller _ (laterSubset other otherMem (mem_filter_of_gives gives))

/-- Unless the options are strict, a build succeeds if the records do not offer too many variants. -/
theorem exists_buildRecords {options : BuildOptions} (lenient : options.strict = false)
    (report : Report) {records : List InstructionRecord}
    (few : (records.flatMap (InstructionRecord.offers options)).length ≤ Link.rowLimit) :
    ∃ build, buildRecords options report records = .ok build := by
  obtain ⟨state, added⟩ := BuildState.exists_addAll lenient { report := report } records
  have holds := Selection.offerAll_holds (records.flatMap (InstructionRecord.offers options))
  rw [← BuildState.addAll_selection added] at holds
  simp [buildRecords, added, Table.ofVariants_eq, holds.length_toList_le.trans few]

/-- A build that succeeds lays out a selection from all that the records offer. -/
theorem exists_selection_of_buildRecords {options : BuildOptions} {report : Report}
    {records : List InstructionRecord} {build : TableBuild}
    (built : buildRecords options report records = .ok build) :
    ∃ selection : Selection,
      selection.Holds (records.flatMap (InstructionRecord.offers options)) ∧
        build.table = .ofRows (selection.toList.mergeSort Variant.rowLE) := by
  rw [buildRecords] at built
  cases added : BuildState.addAll options { report := report } records with
  | error failure =>
      rw [added] at built
      cases built
  | ok state =>
      simp only [added, Table.ofVariants_eq] at built
      refine ⟨state.selection, ?_, ?_⟩
      · rw [BuildState.addAll_selection added]
        exact Selection.offerAll_holds _
      · split_ifs at built
        cases built
        rfl

/-- If no two rows have the same key, a key that some row has stands in one row only, and this is the
first row with the key. -/
private theorem exists_row_of_mem_keys {rows : List Variant}
    (distinct : (rows.map Variant.key).Nodup) {key : VariantKey}
    (keyMem : key ∈ rows.map Variant.key) :
    ∃ row variant, rows[row]? = some variant ∧ variant.key = key ∧
      (∀ other, rows[other]?.map Variant.key = some key → other = row) ∧
      (rows.findIdx? fun variant => variant.key = key) = some row := by
  obtain ⟨variant, variantMem, rfl⟩ := List.mem_map.mp keyMem
  obtain ⟨row, rowLt, rfl⟩ := List.getElem_of_mem variantMem
  have unique : ∀ other, rows[other]?.map Variant.key = some rows[row].key → other = row := by
    intro other sameKey
    have sameAt : (rows.map Variant.key)[row]? = (rows.map Variant.key)[other]? := by
      rw [List.getElem?_map, List.getElem?_map, sameKey, List.getElem?_eq_getElem rowLt]
      rfl
    exact ((List.getElem?_inj (by simpa using rowLt) distinct).mp sameAt).symm
  refine ⟨row, rows[row], List.getElem?_eq_getElem rowLt, rfl, unique, ?_⟩
  apply List.findIdx?_eq_some_iff_getElem.mpr
  refine ⟨rowLt, decide_eq_true rfl, ?_⟩
  intro earlier earlierLt sameKey
  have earlierEq : earlier = row := by
    apply unique
    rw [List.getElem?_eq_getElem (earlierLt.trans rowLt), Option.map_some]
    exact congrArg some (of_decide_eq_true sameKey)
  omega

/-- A table that was built from records has a key exactly if some record gives an encoding for it. Each
of its keys stands in one row, which looking it up gives; the encoding there is given by a record such
that every earlier record gives a larger encoding for the key and no later one gives a smaller one.
Looking up any other key gives nothing, and the entries of the lookup lead to every row once. -/
theorem buildRecords_contents {options : BuildOptions} {report : Report}
    {records : List InstructionRecord} {build : TableBuild}
    (built : buildRecords options report records = .ok build) :
    (∀ key, key ∈ build.table.variants.map Variant.key ↔
      ∃ record ∈ records, ∃ encoding, options.Gives record key encoding) ∧
    (∀ key ∈ build.table.variants.map Variant.key,
      ∃ row variant, build.table.variants[row]? = some variant ∧ variant.key = key ∧
        (∀ other, build.table.variants[other]?.map Variant.key = some key → other = row) ∧
        build.table.find? key = some row ∧
        ∃ earlier record later, records = earlier ++ record :: later ∧
          options.Gives record key variant.encoding ∧
          (∀ other ∈ earlier, ∀ encoding, options.Gives other key encoding →
            variant.encoding.size < encoding.size) ∧
          ∀ other ∈ later, ∀ encoding, options.Gives other key encoding →
            variant.encoding.size ≤ encoding.size) ∧
    (∀ key, key ∉ build.table.variants.map Variant.key → build.table.find? key = none) ∧
    (build.table.lookup.entries.toList.map LookupEntry.row).Perm (List.range build.table.size) := by
  obtain ⟨selection, holds, tableEq⟩ := exists_selection_of_buildRecords built
  rw [tableEq, Table.variants_ofRows, Table.size_ofRows, Table.lookup_ofRows]
  simp only [Table.find?, Table.lookup_ofRows, Lookup.find?_ofRows]
  have perm : (selection.toList.mergeSort Variant.rowLE).Perm selection.toList :=
    List.mergeSort_perm _ _
  have keysPerm := perm.map Variant.key
  have distinct : ((selection.toList.mergeSort Variant.rowLE).map Variant.key).Nodup :=
    keysPerm.nodup_iff.mpr holds.nodup_keys
  refine ⟨?_, ?_, ?_, Lookup.map_row_ofRows_perm distinct⟩
  · intro key
    rw [keysPerm.mem_iff, holds.mem_keys_iff, InstructionRecord.mem_keys_offers_iff]
  · intro key keyMem
    obtain ⟨row, variant, variantAt, keyEq, unique, first⟩ := exists_row_of_mem_keys distinct keyMem
    have held : variant ∈ selection.toList := perm.mem_iff.mp (List.mem_of_getElem? variantAt)
    have best := holds.best variant held
    rw [keyEq] at best
    exact ⟨row, variant, variantAt, keyEq, unique, first, exists_record_of_best? best⟩
  · intro key absent
    apply List.findIdx?_eq_none_iff.mpr
    intro variant variantMem
    apply decide_eq_false
    rintro rfl
    exact absent (List.mem_map_of_mem variantMem)

/-- Two records of one instruction, the second with the smaller encoding. -/
def nopRecords : List InstructionRecord :=
  [{ name := "nop", operands := "", encoding := "0F 1F /0" },
    { name := "nop", operands := "", encoding := "90" }]

private theorem nopRecords_gives :
    ({} : BuildOptions).Gives ⟨"nop", "", "90", "", none, none, false⟩ ⟨"nop", []⟩
      ⟨"NORMAL", .empty, [0x90], false, none, none, none, []⟩ :=
  ⟨Or.inl rfl, rfl, rfl, rfl, [[]], rfl, List.mem_singleton.mpr rfl⟩

theorem buildRecords_contents_nop :
    ∃ build, buildRecords {} {} nopRecords = .ok build ∧
      ∃ row variant, build.table.variants[row]? = some variant ∧
        build.table.find? ⟨"nop", []⟩ = some row ∧ variant.encoding.opcode = [0x90] := by
  obtain ⟨build, built⟩ : ∃ build, buildRecords {} {} nopRecords = .ok build :=
    exists_buildRecords rfl {} (by decide)
  obtain ⟨hasKey, inRow, -, -⟩ := buildRecords_contents built
  have keyMem := (hasKey ⟨"nop", []⟩).mpr ⟨_, by simp [nopRecords], _, nopRecords_gives⟩
  obtain ⟨row, variant, variantAt, -, -, found, earlier, record, later, split, gives, -, notSmaller⟩ :=
    inRow _ keyMem
  refine ⟨build, built, row, variant, variantAt, found, ?_⟩
  match earlier, split with
  | [], split =>
      -- The first record gives a larger encoding than the second.
      obtain ⟨rfl, rfl⟩ := List.cons.inj split
      have sizeLe := notSmaller _ List.mem_cons_self _ nopRecords_gives
      have encodingEq : _ = variant.encoding := Except.ok.inj gives.parsed
      rw [← encodingEq] at sizeLe
      exact absurd sizeLe (by decide)
  | [_], split =>
      obtain ⟨-, split⟩ := List.cons.inj split
      obtain ⟨rfl, -⟩ := List.cons.inj split
      have encodingEq : _ = variant.encoding := Except.ok.inj gives.parsed
      rw [← encodingEq]
      rfl
  | _ :: _ :: _, split => simp [nopRecords] at split

end OpcodeTable
