import OpcodeTable.Proofs.Build.Rejections

/-!
# Strict builds

A strict build gives a table exactly if a lenient one gives it and reports no rejection. What a strict
build reports otherwise is the first form whose text has no name, even if the options do not ask for this
form; only a database whose forms all have names is searched for the first record that the options ask
for and that cannot be read.
-/

namespace OpcodeTable.Database

/-- A strict build succeeds exactly if the lenient build does and skips nothing, and then both give the
same table and the same report. A build of either kind that succeeds has a clean report exactly if it
skipped nothing, because no operand word is reported of a record that can be read. -/
theorem build_strictness (options : BuildOptions) (database : Database) :
    (∀ build,
      database.build { options with strict := true } = .ok build ↔
        database.build { options with strict := false } = .ok build ∧ build.report.skipped = []) ∧
    (∀ build, database.build options = .ok build →
      (build.report.isClean = true ↔ build.report.skipped = [])) ∧
    ∀ (record : InstructionRecord) (variants : List Variant),
      record.variants = .ok variants → record.unknownWords = [] := by
  refine ⟨?_, ?_, fun record variants => InstructionRecord.unknownWords_eq_nil⟩
  · intro build
    rw [build_strict_eq_ok_iff]
    apply and_congr_right
    intro built
    rw [skipped_of_build built]
    rfl
  · intro build built
    have unknownEq := unknown_of_build built
    rw [← skipped_of_build built] at unknownEq
    constructor
    · intro clean
      simp only [Report.isClean, Bool.and_eq_true, List.isEmpty_iff] at clean
      exact clean.2
    · intro noneSkipped
      simp [Report.isClean, unknownEq noneSkipped, noneSkipped]

section Forms

variable {forms : List (Except SkippedRecord InstructionRecord)}

private theorem exists_records_of_split (allSplit : ∀ form ∈ forms, malformed? form = none) :
    ∃ records : List InstructionRecord, forms = records.map .ok := by
  induction forms with
  | nil => exact ⟨[], rfl⟩
  | cons form rest ih =>
      obtain ⟨records, rfl⟩ :=
        ih fun other otherMem => allSplit other (List.mem_cons_of_mem form otherMem)
      cases form with
      | error skipped => cases allSplit _ List.mem_cons_self
      | ok record => exact ⟨record :: records, rfl⟩

private theorem findSome?_malformed?_map_ok (records : List InstructionRecord) :
    (records.map Except.ok).findSome? malformed? = none := by
  rw [List.findSome?_eq_none_iff]
  intro form formMem
  obtain ⟨record, _, rfl⟩ := List.mem_map.mp formMem
  rfl

/-- The first form that could not be split has only split ones before it. -/
theorem findSome?_malformed?_eq_some_iff {skipped : SkippedRecord} :
    forms.findSome? malformed? = some skipped ↔
      ∃ (earlier : List InstructionRecord) (later : List (Except SkippedRecord InstructionRecord)),
        forms = earlier.map .ok ++ .error skipped :: later := by
  constructor
  · intro found
    obtain ⟨before, form, later, formsEq, malformed, allSplit⟩ := List.findSome?_eq_some_iff.mp found
    obtain ⟨earlier, rfl⟩ := exists_records_of_split allSplit
    cases form with
    | ok record => cases malformed
    | error other =>
        obtain rfl := Option.some.inj malformed
        exact ⟨earlier, later, formsEq⟩
  · rintro ⟨earlier, later, rfl⟩
    rw [List.findSome?_append, findSome?_malformed?_map_ok]
    rfl

theorem findSome?_malformed?_eq_none_iff :
    forms.findSome? malformed? = none ↔
      ∃ records : List InstructionRecord, forms = records.map .ok := by
  constructor
  · intro notFound
    exact exists_records_of_split (List.findSome?_eq_none_iff.mp notFound)
  · rintro ⟨records, rfl⟩
    exact findSome?_malformed?_map_ok records

end Forms

theorem findSome?_rejection?_eq_some_iff {options : BuildOptions} {records : List InstructionRecord}
    {skipped : SkippedRecord} :
    records.findSome? (InstructionRecord.rejection? options) = some skipped ↔
      ∃ earlier record later, records = earlier ++ record :: later ∧
        (∀ other ∈ earlier, options.keeps other = true → ∃ variants, other.variants = .ok variants) ∧
        options.keeps record = true ∧
          ∃ fault, record.variants = .error fault ∧ record.skip fault = skipped := by
  simp only [List.findSome?_eq_some_iff, InstructionRecord.rejection?_eq_some_iff,
    InstructionRecord.rejection?_eq_none_iff]
  constructor
  · rintro ⟨earlier, record, later, recordsEq, ⟨kept, unreadable⟩, read⟩
    exact ⟨earlier, record, later, recordsEq, read, kept, unreadable⟩
  · rintro ⟨earlier, record, later, recordsEq, read, kept, unreadable⟩
    exact ⟨earlier, record, later, recordsEq, ⟨kept, unreadable⟩, read⟩

/-- A lenient build can only end because the variants cannot be laid out. -/
theorem build_lenient_ne_record {options : BuildOptions} (lenient : options.strict = false)
    (database : Database) (text : String) (fault : SyntaxError) :
    database.build options ≠ .error (.record text fault) := by
  obtain ⟨state, added⟩ := BuildState.exists_addAll lenient
    { report := { skipped := database.records.filterMap malformed? } } database.splitRecords
  rw [build_lenient lenient, buildRecords, added]
  cases laidOut : Table.ofVariants state.selection.toList with
  | error fault => simp [laidOut]
  | ok table => simp [laidOut]

/-- A strict build ends at the first rejection and for no other record. -/
theorem build_strict_eq_record_iff {options : BuildOptions} {database : Database} {text : String}
    {fault : SyntaxError} :
    database.build { options with strict := true } = .error (.record text fault) ↔
      ∃ encoding, (database.rejections options).head? = some ⟨text, encoding, fault⟩ := by
  rw [build_strict]
  cases (database.rejections options).head? with
  | none => simp [build_lenient_ne_record]
  | some skipped =>
      obtain ⟨skippedText, encoding, skippedFault⟩ := skipped
      simp [SkippedRecord.failure]

/-- A strict build ends with the first form whose text has no name, whether or not the options ask for
it. If all forms have names, it ends with the first record that the options ask for and that cannot be
read. -/
theorem build_strict_error_iff (options : BuildOptions) (database : Database) (text : String)
    (fault : SyntaxError) :
    database.build { options with strict := true } = .error (.record text fault) ↔
      (∃ (earlier : List InstructionRecord) (encoding : String)
          (later : List (Except SkippedRecord InstructionRecord)),
        database.records = earlier.map .ok ++ .error ⟨text, encoding, fault⟩ :: later) ∨
      ∃ (earlier : List InstructionRecord) (record : InstructionRecord)
          (later : List InstructionRecord),
        database.records = (earlier ++ record :: later).map .ok ∧
        (∀ other ∈ earlier, options.keeps other = true → ∃ variants, other.variants = .ok variants) ∧
        options.keeps record = true ∧ record.variants = .error fault ∧ record.text = text := by
  have splitRecords_eq {records : List InstructionRecord}
      (recordsEq : database.records = records.map .ok) : database.splitRecords = records := by
    rw [splitRecords, recordsEq, List.filterMap_map]
    exact List.filterMap_some
  rw [build_strict_eq_record_iff, head?_rejections]
  constructor
  · rintro ⟨encoding, first⟩
    rcases Option.or_eq_some_iff.mp first with malformed | ⟨allSplit, rejected⟩
    · obtain ⟨earlier, later, recordsEq⟩ := findSome?_malformed?_eq_some_iff.mp malformed
      exact Or.inl ⟨earlier, encoding, later, recordsEq⟩
    · obtain ⟨records, recordsEq⟩ := findSome?_malformed?_eq_none_iff.mp allSplit
      rw [splitRecords_eq recordsEq, findSome?_rejection?_eq_some_iff] at rejected
      obtain ⟨earlier, record, later, rfl, read, kept, recordFault, unreadable, skipEq⟩ := rejected
      obtain ⟨rfl, _, rfl⟩ := SkippedRecord.mk.inj skipEq
      exact Or.inr ⟨earlier, record, later, recordsEq, read, kept, unreadable, rfl⟩
  · rintro (⟨earlier, encoding, later, recordsEq⟩ |
      ⟨earlier, record, later, recordsEq, read, kept, unreadable, rfl⟩)
    · refine ⟨encoding, Option.or_eq_some_iff.mpr (Or.inl ?_)⟩
      exact findSome?_malformed?_eq_some_iff.mpr ⟨earlier, later, recordsEq⟩
    · refine ⟨record.encoding, Option.or_eq_some_iff.mpr (Or.inr ⟨?_, ?_⟩)⟩
      · exact findSome?_malformed?_eq_none_iff.mpr ⟨_, recordsEq⟩
      · rw [splitRecords_eq recordsEq, findSome?_rejection?_eq_some_iff]
        exact ⟨earlier, record, later, rfl, read, kept, fault, unreadable, rfl⟩

/-- A form that cannot be read stands in front of one without a name. -/
def namelessLast : Database where
  groups := [⟨"idle", none, none, false, [⟨"nop", "ZZ", none, none⟩, ⟨"", "90", none, none⟩]⟩]

/-- The only form has no name and is deprecated. -/
def namelessDeprecated : Database where
  groups := [⟨"old", none, none, true, [⟨"", "90", none, none⟩]⟩]

/-- A strict build reports a form without a name instead of an earlier form that the options ask for and
that cannot be read, and it fails because of a form that the options do not ask for. -/
theorem build_strict_nameless :
    (namelessLast.build { strict := true } = .error (.record "" (.malformedInstruction "")) ∧
      ∃ record, namelessLast.records[0]? = some (.ok record) ∧
        ({ strict := true } : BuildOptions).keeps record = true ∧
        record.variants = .error (.unknownToken "ZZ" "ZZ")) ∧
    namelessDeprecated.build { strict := true } = .error (.record "" (.malformedInstruction "")) ∧
      ∀ group ∈ namelessDeprecated.groups, group.deprecated = true := by
  refine ⟨⟨rfl, ⟨"nop".toLower, "", "ZZ", "idle", none, none, false⟩, rfl, rfl, rfl⟩, rfl, ?_⟩
  decide

end OpcodeTable.Database
