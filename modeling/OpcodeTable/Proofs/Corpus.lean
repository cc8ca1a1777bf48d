import OpcodeTable.Proofs.Pool.Completion
import OpcodeTable.Proofs.TestCase.Cases

/-!
# The corpus of a validated table

If the bytes of tests are checked, a validation that succeeds gives a corpus with one line for each case
whose bytes agree with its row, in the order of the cases. A case whose bytes differ is kept with them and
the reason. Nothing is assumed about the decoder and the assembler, which may give each worker responses of
its own, and the messages of the workers may arrive in any order.
-/

namespace OpcodeTable

theorem CorpusSummary.total_ofResults (results : List TestResult) :
    (ofResults results).verified + (ofResults results).rejected + (ofResults results).mismatched =
      results.length := by
  induction results with
  | nil => rfl
  | cons result rest ih =>
      obtain ⟨test, outcome⟩ := result
      simp only [ofResults, List.countP_cons, List.length_cons] at ih ⊢
      cases outcome <;> simp [TestResult.isVerified, TestResult.bytes?] at ih ⊢ <;> omega

namespace Table

variable {σ : Type}

/-- The row of a case holds its variant. -/
theorem row?_of_mem_cases {table : Table} {dialect : Dialect} {limit : Option Nat} {test : TestCase}
    (member : test ∈ table.cases dialect limit) :
    ∃ row, table.row? test.row = some row ∧ row.variant = test.variant := by
  obtain ⟨⟨variant, row⟩, numbered, member⟩ := List.mem_flatMap.mp member
  obtain ⟨values, -, rfl⟩ := List.mem_map.mp member
  have found : table.variants[row]? = some variant := by
    simpa [List.mem_zipIdx_iff_getElem?] using numbered
  rw [variants, List.getElem?_map, Option.map_eq_some_iff] at found
  exact found

/-- The tests that a validation has assembled, with the responses to them. -/
def assembled (pool : Pool σ) (table : Table) (state : σ) : List (TestCase × Response) :=
  pool.assembler.responses state (table.validate pool state).events

/-- The line of a test that was assembled to bytes that agree with its row. -/
def acceptedLine? (table : Table) (decoder : Decoder) (format : CorpusFormat) :
    TestCase × Response → Option String
  | (test, .outcome (.encoded bytes)) =>
      match table.row? test.row with
      | none => none
      | some row =>
          match row.variant.encoding.verify bytes (decoder bytes) with
          | .ok _ => (TestResult.mk test (.encoded bytes)).corpusLine? format
          | .error _ => none
  | _ => none

theorem corpusLine?_checkedResult {table : Table} {pool : Pool σ} (checks : pool.options.decodeCheck)
    (format : CorpusFormat) {tested : TestCase × Outcome} {row : TableRow}
    (found : table.row? tested.1.row = some row) (sameVariant : row.variant = tested.1.variant) :
    (pool.checkedResult tested).corpusLine? format =
      table.acceptedLine? pool.decoder format (shownOutcome tested) := by
  obtain ⟨test, outcome⟩ := tested
  cases outcome with
  | rejected rejection => rfl
  | mismatched bytes reason => rfl
  | encoded bytes =>
      simp only at found sameVariant
      simp only [Pool.checkedResult, checkedOutcome, checks, if_true, shownOutcome, acceptedLine?, found,
        sameVariant]
      cases test.variant.encoding.verify bytes (pool.decoder bytes) <;> rfl

theorem checkedResult_of_mismatch {pool : Pool σ} (checks : pool.options.decodeCheck) {test : TestCase}
    {bytes : List UInt8} {mismatch : Mismatch}
    (failed : test.variant.encoding.verify bytes (pool.decoder bytes) = .error mismatch) :
    pool.checkedResult (test, .encoded bytes) = ⟨test, .mismatched bytes mismatch.message⟩ := by
  simp only [Pool.checkedResult, checkedOutcome, checks, if_true, failed]

/-- The corpus of a validation that succeeds. The tests that were assembled are the cases of the rows in
order, those of a row in the order of its odometer, and each has an outcome. The corpus has one line for
each that was assembled to bytes that agree with its row, and no other. A test whose bytes differ from the
row is kept with them and the reason. The counts add up to the number of cases. -/
theorem corpus_validate {pool : Pool σ} {table : Table} {state : σ} {results : List TestResult}
    (checks : pool.options.decodeCheck = true)
    (inOrder : Interleaving
      (pool.sent (table.cases pool.options.dialect pool.options.casesPerRow) state)
      (pool.received (table.cases pool.options.dialect pool.options.casesPerRow) state))
    (ok : (table.validate pool state).result = .ok results) :
    ((table.assembled pool state).map Prod.fst =
      table.variants.zipIdx.flatMap fun (variant, row) =>
        (upTo pool.options.casesPerRow (choices (variant.catalogues pool.options.dialect))).map
          fun values => ⟨variant, row, values⟩) ∧
    (∀ test response, (test, response) ∈ table.assembled pool state →
      ∃ outcome row, response = .outcome outcome ∧ table.row? test.row = some row ∧
        row.variant = test.variant) ∧
    (∀ format, corpusText format results =
      String.join (((table.assembled pool state).filterMap
        (table.acceptedLine? pool.decoder format)).map fun line => line ++ "\n")) ∧
    (∀ (position : Nat) (test : TestCase) (bytes : List UInt8) (row : TableRow) (mismatch : Mismatch),
      (table.assembled pool state)[position]? = some (test, .outcome (.encoded bytes)) →
      table.row? test.row = some row →
      row.variant.encoding.verify bytes (pool.decoder bytes) = .error mismatch →
        results[position]? = some ⟨test, .mismatched bytes mismatch.message⟩) ∧
    (CorpusSummary.ofResults results).verified + (CorpusSummary.ofResults results).rejected +
      (CorpusSummary.ofResults results).mismatched =
        (table.cases pool.options.dialect pool.options.casesPerRow).length := by
  obtain ⟨record, testsEq, responsesEq, rfl⟩ := Pool.complete_of_ok inOrder ok
  have assembledEq : table.assembled pool state = record.map shownOutcome := responsesEq
  have rowOf {tested : TestCase × Outcome} (member : tested ∈ record) :
      ∃ row, table.row? tested.1.row = some row ∧ row.variant = tested.1.variant := by
    apply row?_of_mem_cases
    rw [← testsEq]
    exact List.mem_map_of_mem member
  rw [assembledEq]
  refine ⟨?_, ?_, ?_, ?_, ?_⟩
  · have shownTests : (record.map shownOutcome).map Prod.fst = record.map Prod.fst := by
      rw [List.map_map]
      rfl
    rw [shownTests, testsEq]
    simp only [cases, Variant.cases_eq]
  · intro test response member
    obtain ⟨tested, tested_mem, shown⟩ := List.mem_map.mp member
    obtain ⟨rfl, rfl⟩ := Prod.mk.inj shown
    obtain ⟨row, found, sameVariant⟩ := rowOf tested_mem
    exact ⟨tested.2, row, rfl, found, sameVariant⟩
  · intro format
    rw [corpusText, List.filterMap_map, List.filterMap_map]
    congr 2
    apply List.filterMap_congr
    intro tested member
    obtain ⟨row, found, sameVariant⟩ := rowOf member
    exact corpusLine?_checkedResult checks format found sameVariant
  · intro position test bytes row mismatch shownAt found failed
    rw [List.getElem?_map, Option.map_eq_some_iff] at shownAt
    obtain ⟨⟨tested, outcome⟩, recordAt, shown⟩ := shownAt
    obtain ⟨rfl, sameResponse⟩ := Prod.mk.inj shown
    obtain rfl := Response.outcome.inj sameResponse
    obtain ⟨other, otherFound, sameVariant⟩ := rowOf (List.mem_of_getElem? recordAt)
    obtain rfl : row = other := Option.some.inj (found.symm.trans otherFound)
    rw [List.getElem?_map, recordAt, Option.map_some,
      checkedResult_of_mismatch checks (sameVariant ▸ failed)]
  · rw [CorpusSummary.total_ofResults, List.length_map, ← testsEq, List.length_map]

/-- A test of an instruction with a register. -/
def incTest (register : String) : TestCase :=
  ⟨⟨"inc", [.general .dword], ⟨"M", .empty, [0xFF], false, none, some (.digit ⟨0, Nat.zero_lt_succ 7⟩), none,
    []⟩⟩, 0, [register]⟩

/-- A table of two rows, with three cases. -/
def twoRows : Table where
  rows := [⟨(incTest "ecx").variant, none⟩, ⟨(nopTest 1).variant, none⟩]

/-- Two workers with an assembler that knows one case, takes another for a different instruction and
rejects the last. -/
def checkingWorkers : Pool Unit where
  options := { workerLimit := some 2 }
  hardware := 4
  decoder := fun bytes =>
    if bytes = [0xFF, 0xC1] then
      [⟨2, false, false, .legacy, .normal, 0xFF, some 0⟩]
    else
      [⟨1, false, false, .legacy, .normal, 0x90, none⟩]
  assembler := .ofFunction fun _ test =>
    if test.values = ["ecx"] then
      .outcome (.encoded [0xFF, 0xC1])
    else if test.values = ["r11d"] then
      .outcome (.encoded [0x90])
    else
      .outcome (.rejected ⟨1, "unknown instruction"⟩)
  deliver := fun sequences => sequences.reverse.flatten

private theorem cases_twoRows :
    twoRows.cases .nasm none = [incTest "ecx", incTest "r11d", nopTest 1] := by
  simp only [cases, Variant.cases_eq]
  decide +kernel

private theorem inOrder_twoRows :
    Interleaving (checkingWorkers.sent (twoRows.cases .nasm none) ())
      (checkingWorkers.received (twoRows.cases .nasm none) ()) := by
  have sent : checkingWorkers.sent (twoRows.cases .nasm none) () =
      [[.results 0 [⟨incTest "ecx", .encoded [0xFF, 0xC1]⟩,
          ⟨incTest "r11d", .mismatched [0x90] "opcode 90 not in FF"⟩]],
        [.results 1 [⟨nopTest 1, .rejected ⟨1, "unknown instruction"⟩⟩]]] := by
    rw [cases_twoRows]
    decide +kernel
  rw [Pool.received, sent]
  exact @Interleaving.take _ _ 1 _ _ _ rfl (@Interleaving.take _ _ 0 _ _ _ rfl (.done (by simp)))

private theorem assembled_twoRows :
    twoRows.assembled checkingWorkers () =
      [(incTest "ecx", .outcome (.encoded [0xFF, 0xC1])),
        (incTest "r11d", .outcome (.encoded [0x90])),
        (nopTest 1, .outcome (.rejected ⟨1, "unknown instruction"⟩))] := by
  change checkingWorkers.assembler.responses ()
    (checkingWorkers.run (twoRows.cases .nasm none) ()).events = _
  rw [cases_twoRows]
  decide +kernel

theorem corpus_validate_twoRows :
    ∃ results, (twoRows.validate checkingWorkers ()).result = .ok results ∧
      corpusText .line results = "inc ecx ;FFC1\n" ∧
      results[1]? = some ⟨incTest "r11d", .mismatched [0x90] "opcode 90 not in FF"⟩ ∧
      (CorpusSummary.ofResults results).verified + (CorpusSummary.ofResults results).rejected +
        (CorpusSummary.ofResults results).mismatched = 3 := by
  have ok : ∃ results, (twoRows.validate checkingWorkers ()).result = .ok results := by
    change ∃ results, (checkingWorkers.run (twoRows.cases .nasm none) ()).result = .ok results
    rw [cases_twoRows]
    exact ⟨_, rfl⟩
  obtain ⟨results, ok⟩ := ok
  obtain ⟨-, -, corpus, mismatched, total⟩ := corpus_validate rfl inOrder_twoRows ok
  refine ⟨results, ok, ?_, ?_, ?_⟩
  · rw [corpus, assembled_twoRows]
    decide +kernel
  · have shownAt : (twoRows.assembled checkingWorkers ())[1]? =
        some (incTest "r11d", .outcome (.encoded [0x90])) := by
      rw [assembled_twoRows]
      rfl
    exact mismatched 1 _ _ _ (.opcode 0x90 "FF") shownAt rfl rfl
  · rw [total]
    exact congrArg List.length cases_twoRows

end Table

end OpcodeTable
