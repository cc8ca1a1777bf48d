import OpcodeTable.Proofs.Build.Offers
import OpcodeTable.Proofs.Operand.Faults

/-!
# What a build rejects

A build rejects forms in two passes. The first pass goes through all forms and rejects those whose text
has no name; the second goes through the records of the others and rejects those that the options ask
for and that cannot be read. A lenient build reports all rejections, in this order. A strict build ends
with the first of them, and if there is none it does what a lenient build does.
-/

namespace OpcodeTable

namespace InstructionRecord

/-- How a build rejects a record: the options ask for it, and its texts cannot be read. -/
def rejection? (options : BuildOptions) (record : InstructionRecord) : Option SkippedRecord :=
  if options.keeps record then
    match record.variants with
    | .ok _ => none
    | .error fault => some (record.skip fault)
  else
    none

variable {options : BuildOptions} {record : InstructionRecord}

theorem rejection?_eq_some_iff {skipped : SkippedRecord} :
    record.rejection? options = some skipped ↔
      options.keeps record = true ∧
        ∃ fault, record.variants = .error fault ∧ record.skip fault = skipped := by
  unfold rejection?
  split_ifs with kept
  · cases record.variants with
    | ok variants => simp
    | error fault => simp [kept]
  · simp [kept]

theorem rejection?_eq_none_iff :
    record.rejection? options = none ↔
      (options.keeps record = true → ∃ variants, record.variants = .ok variants) := by
  unfold rejection?
  split_ifs with kept
  · cases record.variants with
    | ok variants => simp
    | error fault => simp [kept]
  · simp [kept]

/-- A record that can be read has no operand word that names no type. -/
theorem unknownWords_eq_nil {variants : List Variant} (read : record.variants = .ok variants) :
    record.unknownWords = [] := by
  obtain ⟨encoding, tuples, parsed, expanded, _⟩ := variants_eq_ok_iff.mp read
  rw [unknownWords, parsed]
  exact Operand.unknown_expand_eq_nil expanded

/-- The words of a record that a build reports because they name no type. -/
def reportedWords (options : BuildOptions) (record : InstructionRecord) : List String :=
  if options.keeps record then record.unknownWords else []

theorem reportedWords_eq_nil (notRejected : record.rejection? options = none) :
    record.reportedWords options = [] := by
  unfold reportedWords
  split_ifs with kept
  · obtain ⟨variants, read⟩ := rejection?_eq_none_iff.mp notRejected kept
    exact unknownWords_eq_nil read
  · rfl

end InstructionRecord

/-- The error that ends a strict build at a rejection. -/
def SkippedRecord.failure (skipped : SkippedRecord) : BuildError :=
  .record skipped.text skipped.fault

theorem Report.reject_eq (options : BuildOptions) (report : Report) (skipped : SkippedRecord) :
    report.reject options skipped =
      if options.strict then .error skipped.failure else .ok (report.addSkipped skipped) :=
  rfl

namespace Report

variable (options : BuildOptions) (report : Report) (records : List InstructionRecord)

/-- The report with what one more record adds to it, if the record does not end the build. -/
def account (record : InstructionRecord) : Report where
  unknown := (report.addUnknown (record.reportedWords options)).unknown
  skipped := report.skipped ++ (record.rejection? options).toList
  filtered := report.filtered + if options.keeps record then 0 else 1

theorem skipped_foldl_account :
    (records.foldl (account options) report).skipped =
      report.skipped ++ records.filterMap (InstructionRecord.rejection? options) := by
  induction records generalizing report with
  | nil => simp
  | cons record rest ih =>
      rw [List.foldl_cons, ih, account]
      cases rejected : record.rejection? options <;> simp [rejected]

theorem filtered_foldl_account :
    (records.foldl (account options) report).filtered =
      report.filtered + records.countP fun record => !options.keeps record := by
  induction records generalizing report with
  | nil => simp
  | cons record rest ih =>
      rw [List.foldl_cons, ih, account, List.countP_cons]
      cases options.keeps record
      · simp
        omega
      · simp

theorem unknown_foldl_account :
    (records.foldl (account options) report).unknown =
      (report.addUnknown (records.flatMap (InstructionRecord.reportedWords options))).unknown := by
  induction records generalizing report with
  | nil => rfl
  | cons record rest ih =>
      rw [List.foldl_cons, ih, account, List.flatMap_cons]
      simp only [addUnknown, List.foldl_append]

end Report

namespace BuildState

variable {options : BuildOptions} {state : BuildState} {record : InstructionRecord}

theorem add_of_rejected {skipped : SkippedRecord}
    (rejected : record.rejection? options = some skipped) :
    state.add options record =
      if options.strict then
        .error skipped.failure
      else
        .ok ⟨state.selection, (state.report.addUnknown record.unknownWords).addSkipped skipped⟩ := by
  obtain ⟨kept, fault, unreadable, rfl⟩ := InstructionRecord.rejection?_eq_some_iff.mp rejected
  simp only [add, kept, if_true, unreadable, Report.reject_eq]
  cases options.strict <;> rfl

/-- A record that is not rejected leaves the report alone, unless it is filtered out. -/
theorem add_of_not_rejected (notRejected : record.rejection? options = none) :
    state.add options record =
      .ok ⟨state.selection.offerAll (record.offers options),
        if options.keeps record then state.report else state.report.addFiltered⟩ := by
  cases kept : options.keeps record with
  | false =>
      simp only [add, kept, InstructionRecord.offers]
      rfl
  | true =>
      obtain ⟨variants, read⟩ := InstructionRecord.rejection?_eq_none_iff.mp notRejected kept
      simp only [add, kept, if_true, read, InstructionRecord.offers,
        InstructionRecord.unknownWords_eq_nil read]
      rfl

/-- A strict build ends with the first record that is rejected, and does what a lenient build does if
there is none. -/
theorem addAll_strict (options : BuildOptions) (state : BuildState)
    (records : List InstructionRecord) :
    addAll { options with strict := true } state records =
      match records.findSome? (InstructionRecord.rejection? options) with
      | some skipped => .error skipped.failure
      | none => addAll { options with strict := false } state records := by
  induction records generalizing state with
  | nil => rfl
  | cons record rest ih =>
      rw [addAll, addAll, List.findSome?_cons]
      cases rejected : record.rejection? options with
      | some skipped =>
          have ended := @add_of_rejected { options with strict := true } state record skipped rejected
          rw [ended]
          rfl
      | none =>
          have strictStep := @add_of_not_rejected { options with strict := true } state record rejected
          have lenientStep := @add_of_not_rejected { options with strict := false } state record rejected
          rw [strictStep, lenientStep]
          exact ih _

theorem add_report {next : BuildState} (added : state.add options record = .ok next) :
    next.report = state.report.account options record := by
  cases rejected : record.rejection? options with
  | some skipped =>
      have kept := (InstructionRecord.rejection?_eq_some_iff.mp rejected).1
      rw [add_of_rejected rejected] at added
      cases strictness : options.strict with
      | true => simp [strictness] at added
      | false =>
          simp only [strictness, Bool.false_eq_true, if_false, Except.ok.injEq] at added
          rw [← added]
          simp [Report.account, Report.addSkipped, Report.addUnknown,
            InstructionRecord.reportedWords, rejected, kept]
  | none =>
      rw [add_of_not_rejected rejected] at added
      rw [← Except.ok.inj added, Report.account, InstructionRecord.reportedWords_eq_nil rejected]
      cases kept : options.keeps record with
      | false => simp [Report.addFiltered, Report.addUnknown, rejected]
      | true => simp [Report.addUnknown, rejected]

theorem addAll_report {final : BuildState} {records : List InstructionRecord}
    (added : addAll options state records = .ok final) :
    final.report = records.foldl (Report.account options) state.report := by
  induction records generalizing state with
  | nil =>
      obtain rfl := Except.ok.inj added
      rfl
  | cons record rest ih =>
      rw [addAll] at added
      cases step : state.add options record with
      | error failure => simp [step] at added
      | ok next =>
          rw [step] at added
          rw [ih added, List.foldl_cons, add_report step]

end BuildState

section Records

variable {options : BuildOptions} {report : Report} {records : List InstructionRecord}

theorem buildRecords_strict (options : BuildOptions) (report : Report)
    (records : List InstructionRecord) :
    buildRecords { options with strict := true } report records =
      match records.findSome? (InstructionRecord.rejection? options) with
      | some skipped => .error skipped.failure
      | none => buildRecords { options with strict := false } report records := by
  rw [buildRecords, buildRecords, BuildState.addAll_strict]
  cases records.findSome? (InstructionRecord.rejection? options) with
  | some skipped => rfl
  | none => rfl

/-- What a lenient build gives, as a function of the records and of the report that it goes on with. -/
theorem buildRecords_lenient (lenient : options.strict = false) (report : Report)
    (records : List InstructionRecord) :
    buildRecords options report records =
      match Table.ofVariants
          (({} : Selection).offerAll (records.flatMap (InstructionRecord.offers options))).toList with
      | .error fault => .error (.table fault)
      | .ok table => .ok ⟨table, records.foldl (Report.account options) report⟩ := by
  obtain ⟨state, added⟩ := BuildState.exists_addAll lenient { report := report } records
  have selectionEq := BuildState.addAll_selection added
  have reportEq := BuildState.addAll_report added
  cases laidOut :
      Table.ofVariants
        (({} : Selection).offerAll (records.flatMap (InstructionRecord.offers options))).toList with
  | error fault => simp only [buildRecords, added, selectionEq, laidOut]
  | ok table => simp only [buildRecords, added, selectionEq, reportEq, laidOut]

theorem exists_addAll_of_buildRecords {build : TableBuild}
    (built : buildRecords options report records = .ok build) :
    ∃ state, BuildState.addAll options { report := report } records = .ok state ∧
      Table.ofVariants state.selection.toList = .ok build.table ∧ build.report = state.report := by
  unfold buildRecords at built
  cases added : BuildState.addAll options { report := report } records with
  | error failure => simp [added] at built
  | ok state =>
      simp only [added] at built
      cases laidOut : Table.ofVariants state.selection.toList with
      | error fault => simp [laidOut] at built
      | ok table =>
          simp only [laidOut, Except.ok.injEq] at built
          obtain rfl := built
          exact ⟨state, rfl, laidOut, rfl⟩

end Records

/-- How a build rejects a form that could not be split. -/
def malformed? : Except SkippedRecord InstructionRecord → Option SkippedRecord
  | .error skipped => some skipped
  | .ok _ => none

theorem gatherRecords_lenient {options : BuildOptions} (lenient : options.strict = false)
    (report : Report) (forms : List (Except SkippedRecord InstructionRecord)) :
    gatherRecords options report forms =
      .ok ({ report with skipped := report.skipped ++ forms.filterMap malformed? },
        forms.filterMap Except.toOption) := by
  induction forms generalizing report with
  | nil => simp [gatherRecords]
  | cons form rest ih =>
      cases form with
      | ok record => simp [gatherRecords, ih, List.filterMap_cons, malformed?, Except.toOption]
      | error skipped =>
          simp [gatherRecords, Report.reject_eq, lenient, ih, List.filterMap_cons, malformed?,
            Except.toOption, Report.addSkipped]

theorem gatherRecords_strict {options : BuildOptions} (strict : options.strict = true)
    (report : Report) (forms : List (Except SkippedRecord InstructionRecord)) :
    gatherRecords options report forms =
      match forms.findSome? malformed? with
      | some skipped => .error skipped.failure
      | none => .ok (report, forms.filterMap Except.toOption) := by
  induction forms generalizing report with
  | nil => rfl
  | cons form rest ih =>
      cases form with
      | ok record =>
          rw [gatherRecords, ih, List.findSome?_cons_of_isNone (by rfl)]
          cases rest.findSome? malformed? with
          | some skipped => rfl
          | none => rfl
      | error skipped =>
          simp [gatherRecords, Report.reject_eq, strict, List.findSome?_cons, malformed?]

namespace Database

/-- The records of the forms that could be split. -/
def splitRecords (database : Database) : List InstructionRecord :=
  database.records.filterMap Except.toOption

/-- All that a build rejects, in the order in which it does. -/
def rejections (options : BuildOptions) (database : Database) : List SkippedRecord :=
  database.records.filterMap malformed? ++
    database.splitRecords.filterMap (InstructionRecord.rejection? options)

theorem build_lenient {options : BuildOptions} (lenient : options.strict = false)
    (database : Database) :
    database.build options =
      buildRecords options { skipped := database.records.filterMap malformed? }
        database.splitRecords := by
  rw [build, gatherRecords_lenient lenient]
  rfl

theorem head?_rejections (options : BuildOptions) (database : Database) :
    (database.rejections options).head? =
      (database.records.findSome? malformed?).or
        (database.splitRecords.findSome? (InstructionRecord.rejection? options)) := by
  rw [rejections, List.head?_append, List.head?_filterMap, List.head?_filterMap]

/-- A strict build ends with the first rejection, and is a lenient one if there is none. -/
theorem build_strict (options : BuildOptions) (database : Database) :
    database.build { options with strict := true } =
      match (database.rejections options).head? with
      | some skipped => .error skipped.failure
      | none => database.build { options with strict := false } := by
  have gathered := @gatherRecords_strict { options with strict := true } rfl {} database.records
  rw [build, gathered, head?_rejections]
  cases malformed : database.records.findSome? malformed? with
  | some skipped => rfl
  | none =>
      have noneMalformed : database.records.filterMap malformed? = [] := by
        rw [← List.head?_eq_none_iff, List.head?_filterMap, malformed]
      rw [build_lenient rfl, noneMalformed]
      exact buildRecords_strict options {} database.splitRecords

theorem build_strict_eq_ok_iff {options : BuildOptions} {database : Database} {build : TableBuild} :
    database.build { options with strict := true } = .ok build ↔
      database.build { options with strict := false } = .ok build ∧
        database.rejections options = [] := by
  rw [build_strict]
  cases rejected : database.rejections options with
  | nil => simp
  | cons skipped rest => simp

theorem build_lenient_of_build {options : BuildOptions} {database : Database} {build : TableBuild}
    (built : database.build options = .ok build) :
    database.build { options with strict := false } = .ok build := by
  obtain ⟨strict, includeDeprecated, target⟩ := options
  cases strict with
  | false => exact built
  | true => exact (build_strict_eq_ok_iff.mp built).1

/-- A build that succeeds reports all that it rejects. -/
theorem skipped_of_build {options : BuildOptions} {database : Database} {build : TableBuild}
    (built : database.build options = .ok build) :
    build.report.skipped = database.rejections options := by
  have lenientBuilt := build_lenient_of_build built
  rw [build_lenient rfl] at lenientBuilt
  obtain ⟨state, added, _, reportEq⟩ := exists_addAll_of_buildRecords lenientBuilt
  rw [reportEq, BuildState.addAll_report added, Report.skipped_foldl_account]
  rfl

/-- A build that rejects nothing reports no operand word. -/
theorem unknown_of_build {options : BuildOptions} {database : Database} {build : TableBuild}
    (built : database.build options = .ok build) (noneRejected : database.rejections options = []) :
    build.report.unknown = [] := by
  have lenientBuilt := build_lenient_of_build built
  rw [build_lenient rfl] at lenientBuilt
  obtain ⟨state, added, _, reportEq⟩ := exists_addAll_of_buildRecords lenientBuilt
  have recordsKept := List.filterMap_eq_nil_iff.mp (List.append_eq_nil_iff.mp noneRejected).2
  have noWords :
      database.splitRecords.flatMap (InstructionRecord.reportedWords options) = [] := by
    apply List.flatMap_eq_nil_iff.mpr
    intro record recordMem
    exact InstructionRecord.reportedWords_eq_nil (recordsKept record recordMem)
  rw [reportEq, BuildState.addAll_report added, Report.unknown_foldl_account]
  exact congrArg (fun words => (Report.addUnknown _ words).unknown) noWords

end Database

end OpcodeTable
