import OpcodeTable.Proofs.Build.Contents
import OpcodeTable.Proofs.Build.Rejections
import OpcodeTable.Proofs.Report

/-!
# Every form is accounted for

A form of a database has no name, or is filtered out, or cannot be read, or is accepted, and a build
counts it once. A build that goes on with a report keeps what the report has and adds to it; the table
does not depend on the report.
-/

namespace OpcodeTable

namespace InstructionRecord

/-- The fault of the encoding text, or that of the operand text if the encoding can be read. -/
def fault? (record : InstructionRecord) : Option SyntaxError :=
  match Encoding.parse record.encoding with
  | .error fault => some fault
  | .ok _ =>
      match (Operand.expand record.operands).result with
      | .error fault => some fault
      | .ok _ => none

/-- The options ask for the record, and it can be read. -/
def isAccepted (options : BuildOptions) (record : InstructionRecord) : Bool :=
  options.keeps record && record.fault?.isNone

theorem rejection?_eq (options : BuildOptions) (record : InstructionRecord) :
    record.rejection? options =
      if options.keeps record then record.fault?.map record.skip else none := by
  unfold rejection? variants fault?
  cases Encoding.parse record.encoding with
  | error fault => rfl
  | ok encoding =>
      cases (Operand.expand record.operands).result with
      | error fault => rfl
      | ok tuples => rfl

theorem filterMap_rejection? (options : BuildOptions) (records : List InstructionRecord) :
    records.filterMap (rejection? options) =
      (records.filter options.keeps).filterMap fun record => record.fault?.map record.skip := by
  rw [List.filterMap_filter]
  apply List.filterMap_congr
  intro record _
  exact rejection?_eq options record

theorem mem_reportedWords_iff {options : BuildOptions} {record : InstructionRecord} {word : String} :
    word ∈ record.reportedWords options ↔
      options.keeps record = true ∧ (∃ encoding, Encoding.parse record.encoding = .ok encoding) ∧
        word ∈ (Operand.expand record.operands).unknown := by
  unfold reportedWords unknownWords
  split_ifs with kept
  · cases Encoding.parse record.encoding with
    | error fault => simp
    | ok encoding => simp [kept]
  · simp [kept]

/-- A record is filtered out, rejected or accepted. -/
theorem length_eq_filtered_add_rejected_add_accepted (options : BuildOptions)
    (records : List InstructionRecord) :
    records.length =
      records.countP (fun record => !options.keeps record) +
        (records.filterMap (rejection? options)).length + (records.filter (isAccepted options)).length := by
  induction records with
  | nil => rfl
  | cons record rest ih =>
      have rejected := rejection?_eq options record
      rw [List.length_cons, List.countP_cons, List.filterMap_cons, List.filter_cons, isAccepted]
      cases kept : options.keeps record with
      | false =>
          rw [kept] at rejected
          simp only [rejected]
          simp
          omega
      | true =>
          rw [kept] at rejected
          cases fault : record.fault? with
          | none =>
              rw [fault] at rejected
              simp [rejected]
              omega
          | some found =>
              rw [fault] at rejected
              simp [rejected]
              omega

end InstructionRecord

/-- Neither the table nor the error of a build depends on the report that the build goes on with. -/
theorem table_buildRecords (options : BuildOptions) (report other : Report)
    (records : List InstructionRecord) :
    (buildRecords options report records).map TableBuild.table =
      (buildRecords options other records).map TableBuild.table := by
  have lenientCase {chosen : BuildOptions} (lenient : chosen.strict = false) :
      (buildRecords chosen report records).map TableBuild.table =
        (buildRecords chosen other records).map TableBuild.table := by
    rw [buildRecords_lenient lenient, buildRecords_lenient lenient]
    cases Table.ofVariants
      (({} : Selection).offerAll (records.flatMap (InstructionRecord.offers chosen))).toList with
    | error fault => rfl
    | ok table => rfl
  cases strictness : options.strict with
  | false => exact lenientCase strictness
  | true =>
      have strictEq := buildRecords_strict options
      rw [← strictness] at strictEq
      rw [strictEq report records, strictEq other records]
      cases records.findSome? (InstructionRecord.rejection? options) with
      | some skipped => rfl
      | none => exact lenientCase rfl

theorem report_of_buildRecords {options : BuildOptions} {report : Report}
    {records : List InstructionRecord} {build : TableBuild}
    (built : buildRecords options report records = .ok build) :
    build.report = records.foldl (Report.account options) report := by
  obtain ⟨state, added, _, reportEq⟩ := exists_addAll_of_buildRecords built
  rw [reportEq, BuildState.addAll_report added]

namespace Database

/-- The records of the forms that give variants to a table. -/
def acceptedRecords (options : BuildOptions) (database : Database) : List InstructionRecord :=
  database.splitRecords.filter (InstructionRecord.isAccepted options)

theorem length_records (database : Database) :
    database.records.length = (database.groups.flatMap Group.forms).length := by
  simp [records, List.length_flatMap]

theorem length_records_eq_malformed_add_split (database : Database) :
    database.records.length =
      (database.records.filterMap malformed?).length + database.splitRecords.length := by
  unfold splitRecords
  induction database.records with
  | nil => rfl
  | cons form rest ih =>
      cases form with
      | error skipped =>
          simp [List.filterMap_cons, malformed?, Except.toOption, ih]
          omega
      | ok record =>
          simp [List.filterMap_cons, malformed?, Except.toOption, ih]
          omega

theorem filtered_of_build {options : BuildOptions} {database : Database} {build : TableBuild}
    (built : database.build options = .ok build) :
    build.report.filtered = database.splitRecords.countP fun record => !options.keeps record := by
  have lenientBuilt := build_lenient_of_build built
  rw [build_lenient rfl] at lenientBuilt
  rw [report_of_buildRecords lenientBuilt, Report.filtered_foldl_account]
  exact Nat.zero_add _

end Database

/-- A build that gives a table counts every form of the database once, as filtered, as skipped or as
accepted. A build of records gives the same table whatever report it goes on with; it adds the number of
filtered records, one rejection for each record that is asked for and cannot be read, in the order of the
records, and the operand words that name no type of the records that are asked for and whose encoding can
be read. -/
theorem build_accounts_for_forms (options : BuildOptions) :
    (∀ (database : Database) (build : TableBuild), database.build options = .ok build →
      (database.groups.flatMap Group.forms).length =
        build.report.filtered + build.report.skipped.length +
          (database.acceptedRecords options).length) ∧
    ∀ (report : Report) (records : List InstructionRecord),
      (∀ other,
        (buildRecords options report records).map TableBuild.table =
          (buildRecords options other records).map TableBuild.table) ∧
      ∀ build, buildRecords options report records = .ok build →
        build.report.filtered =
          report.filtered + records.countP (fun record => !options.keeps record) ∧
        build.report.skipped =
          report.skipped ++ (records.filter options.keeps).filterMap (fun record =>
            record.fault?.map fun fault => ⟨record.text, record.encoding, fault⟩) ∧
        (∀ word, word ∈ build.report.unknown ↔
          word ∈ report.unknown ∨
            ∃ record ∈ records, options.keeps record = true ∧
              (∃ encoding, Encoding.parse record.encoding = .ok encoding) ∧
              word ∈ (Operand.expand record.operands).unknown) ∧
        (Text.Ascending report.unknown → Text.Ascending build.report.unknown) := by
  constructor
  · intro database build built
    have counted := InstructionRecord.length_eq_filtered_add_rejected_add_accepted options
      database.splitRecords
    rw [← Database.length_records, Database.length_records_eq_malformed_add_split, counted,
      Database.filtered_of_build built, Database.skipped_of_build built, Database.rejections,
      List.length_append, Database.acceptedRecords]
    omega
  · intro report records
    refine ⟨fun other => table_buildRecords options report other records, ?_⟩
    intro build built
    rw [report_of_buildRecords built, Report.filtered_foldl_account, Report.skipped_foldl_account,
      Report.unknown_foldl_account, InstructionRecord.filterMap_rejection?]
    refine ⟨rfl, rfl, ?_, fun ascending => Report.unknown_addUnknown_ascending ascending _⟩
    intro word
    simp only [Report.mem_unknown_addUnknown, List.mem_flatMap, InstructionRecord.mem_reportedWords_iff]

/-- A form without a name, a deprecated one, two that cannot be read and a good one. -/
def mixedForms : Database where
  groups :=
    [⟨"old", none, none, true, [⟨"aaa", "37", none, none⟩]⟩,
      ⟨"new", none, none, false,
        [⟨"mov r32, bogus", "B8+r id", none, none⟩, ⟨"", "90", none, none⟩,
          ⟨"nop", "ZZ", none, none⟩, ⟨"nop", "90", none, none⟩]⟩]

theorem build_accounts_for_forms_mixed :
    ∃ build, mixedForms.build {} = .ok build ∧
      5 = build.report.filtered + build.report.skipped.length +
        (mixedForms.acceptedRecords {}).length ∧
      build.report.filtered = 1 ∧ build.report.skipped.length = 3 ∧ "bogus" ∈ build.report.unknown := by
  obtain ⟨build, built⟩ : ∃ build, mixedForms.build {} = .ok build := by
    rw [Database.build_lenient rfl]
    exact exists_buildRecords rfl _ (by decide +kernel)
  obtain ⟨counts, goesOn⟩ := build_accounts_for_forms {}
  have total := counts mixedForms build built
  have builtRecords := built
  rw [Database.build_lenient rfl] at builtRecords
  obtain ⟨filtered, skipped, unknown, -⟩ := (goesOn _ _).2 build builtRecords
  refine ⟨build, built, total, ?_, ?_, ?_⟩
  · rw [filtered]
    decide +kernel
  · rw [skipped]
    decide +kernel
  · refine (unknown "bogus").mpr (.inr ⟨⟨"mov", "r32, bogus", "B8+r id", "new", none, none, false⟩, ?_⟩)
    exact ⟨by decide +kernel, rfl, ⟨_, rfl⟩, by decide +kernel⟩

end OpcodeTable
