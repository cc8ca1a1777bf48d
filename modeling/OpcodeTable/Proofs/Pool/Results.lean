import Mathlib.Data.List.TakeWhile
import OpcodeTable.Proofs.Pool.Run

/-!
# Results do not depend on the order of messages

If every test has an outcome then a run gives all results in the order of the tests, each with the outcome of
the worker whose chunk holds the test, after the check of its bytes. Neither the order in which messages arrive
nor the reports of progress matter.
-/

namespace OpcodeTable

theorem firstFault?_outcome (answer : TestCase → Outcome) (tests : List TestCase) :
    firstFault? (fun test => .outcome (answer test)) tests = none := by
  simp [firstFault?, Response.isOutcome]

theorem attempted_outcome (answer : TestCase → Outcome) (tests : List TestCase) :
    attempted (fun test => .outcome (answer test)) tests = tests := by
  rw [attempted, firstFault?_outcome, Option.toList_none, List.append_nil]
  exact List.takeWhile_eq_self_iff.mpr fun _ _ => rfl

namespace Pool

variable {σ : Type} {pool : Pool σ} {tests : List TestCase} {state : σ}

/-- What becomes of the outcome of a test. If the check of bytes is asked for, assembled bytes are compared
with the encoding of the test, and bytes that differ are kept with the reason. Any other outcome stays. -/
inductive Checks (pool : Pool σ) (test : TestCase) : Outcome → Outcome → Prop where
  | unasked {bytes : List UInt8} (off : pool.options.decodeCheck = false) :
      Checks pool test (.encoded bytes) (.encoded bytes)
  | accepted {bytes : List UInt8} (on : pool.options.decodeCheck = true)
      (agrees : test.variant.encoding.verify bytes (pool.decoder bytes) = .ok ()) :
      Checks pool test (.encoded bytes) (.encoded bytes)
  | refused {bytes : List UInt8} {mismatch : Mismatch} (on : pool.options.decodeCheck = true)
      (differs : test.variant.encoding.verify bytes (pool.decoder bytes) = .error mismatch) :
      Checks pool test (.encoded bytes) (.mismatched bytes mismatch.message)
  | rejected (rejection : Rejection) : Checks pool test (.rejected rejection) (.rejected rejection)
  | mismatched (bytes : List UInt8) (reason : String) :
      Checks pool test (.mismatched bytes reason) (.mismatched bytes reason)

theorem checks_iff {test : TestCase} {outcome checked : Outcome} :
    pool.Checks test outcome checked ↔
      checked = checkedOutcome pool.options.decodeCheck pool.decoder test.variant outcome := by
  constructor
  · intro checks
    cases checks with
    | unasked off => simp [checkedOutcome, off]
    | accepted on agrees => simp [checkedOutcome, on, agrees]
    | refused on differs => simp [checkedOutcome, on, differs]
    | rejected rejection => rfl
    | mismatched bytes reason => rfl
  · rintro rfl
    cases outcome with
    | rejected rejection => exact .rejected rejection
    | mismatched bytes reason => exact .mismatched bytes reason
    | encoded bytes =>
        cases asked : pool.options.decodeCheck with
        | false => exact .unasked asked
        | true =>
            cases verdict : test.variant.encoding.verify bytes (pool.decoder bytes) with
            | ok => simpa [checkedOutcome, verdict] using Checks.accepted asked verdict
            | error mismatch => simpa [checkedOutcome, verdict] using Checks.refused asked verdict

/-- The result of a test with the outcome that a worker has for it. -/
def resultWith (pool : Pool σ) (answer : Nat → TestCase → Outcome) (worker : Nat) (test : TestCase) :
    TestResult :=
  ⟨test, checkedOutcome pool.options.decodeCheck pool.decoder test.variant (answer worker test)⟩

theorem resultsOf_outcome (answer : Nat → TestCase → Outcome) (worker : Nat) :
    pool.resultsOf (fun worker test => .outcome (answer worker test)) tests worker =
      (pool.testsOf tests worker).map (pool.resultWith answer worker) :=
  congrFun List.filterMap_eq_map _

section

variable {answer : Nat → TestCase → Outcome} (spawned : pool.spawnFailure = none)
  (responds : pool.assembler.Responds fun worker test => .outcome (answer worker test))

include spawned responds

theorem calls_of_outcomes :
    (pool.run tests state).calls =
      tests.mapIdx fun position test => (pool.workerAt tests position, test) := by
  rw [calls_run state spawned responds, ← pool.flatMap_testsOf tests Prod.mk]
  simp only [attempted_outcome]

theorem result_of_outcomes
    (inOrder : Interleaving (pool.sent tests state) (pool.received tests state)) :
    (pool.run tests state).result = .ok (tests.mapIdx fun position =>
      pool.resultWith answer (pool.workerAt tests position)) := by
  rcases result_cases state spawned responds inOrder with
    ⟨_, _, _, -, -, failed, -⟩ | ⟨_, -, broken, -⟩ | ⟨-, result⟩
  · exact Response.noConfusion failed
  · have breaks := List.find?_some broken
    simp [breaksDown, firstFault?_outcome] at breaks
  · rw [result, ← pool.flatMap_testsOf tests (pool.resultWith answer)]
    refine congrArg Except.ok (congrArg (List.flatMap · _) ?_)
    exact funext (resultsOf_outcome answer)

end

private theorem runWorkers_deliver (deliver : List (List Message) → List Message) (start : Nat)
    (chunks : List Chunk) (state : σ) :
    { pool with deliver := deliver }.runWorkers tests start chunks state =
      pool.runWorkers tests start chunks state := by
  induction chunks generalizing start state with
  | nil => rfl
  | cons chunk rest ih =>
      simp only [runWorkers, ih]
      rfl

/-- The result depends only on the messages that tell how workers ended. -/
theorem result_eq_of_reports_eq (spawned : pool.spawnFailure = none) {kept : List Message}
    (sameReports : reports kept = reports (pool.received tests state)) :
    ({ pool with deliver := fun _ => kept }.run tests state).result = (pool.run tests state).result := by
  have spawnedToo : { pool with deliver := fun _ => kept }.spawnFailure = none := spawned
  rw [result_run state spawned, result_run state spawnedToo, runWorkers_deliver,
    ← Collection.foldl_receive_reports _ (pool.received tests state), ← sameReports,
    Collection.foldl_receive_reports]
  rfl

/-- Outcomes that do not depend on the worker give results that do not depend on the chunks. -/
theorem result_of_shared_outcomes {outcome : TestCase → Outcome} (spawned : pool.spawnFailure = none)
    (responds : pool.assembler.Responds fun _ test => .outcome (outcome test))
    (inOrder : Interleaving (pool.sent tests state) (pool.received tests state)) :
    (pool.run tests state).result = .ok (tests.map fun test =>
      ⟨test, checkedOutcome pool.options.decodeCheck pool.decoder test.variant (outcome test)⟩) := by
  rw [result_of_outcomes spawned responds inOrder,
    ← pool.flatMap_testsOf tests (pool.resultWith fun _ => outcome)]
  exact congrArg Except.ok (pool.flatMap_testsOf_const tests _)

/-- If the assembler has an outcome for every test, a run gives the results of all tests in their order,
in whatever order the messages of the workers interleave. Each test is assembled once, by the one worker
whose chunk holds it, and its result has the outcome of that worker after the check of bytes. Reports of
progress may get lost. If the outcomes do not depend on the worker then all pools with the same check have
the same results, however many workers they have. -/
theorem run_results_interleaved {answer : Nat → TestCase → Outcome} (spawned : pool.spawnFailure = none)
    (responds : pool.assembler.Responds fun worker test => .outcome (answer worker test))
    (inOrder : Interleaving (pool.sent tests state) (pool.received tests state)) :
    (∃ results, (pool.run tests state).result = .ok results ∧
      results.length = tests.length ∧ (pool.run tests state).calls.length = tests.length ∧
      ∀ position test, tests[position]? = some test →
        ∃ worker outcome,
          (∀ number, pool.Holds tests number position ↔ number = worker) ∧
          (pool.run tests state).calls[position]? = some (worker, test) ∧
          pool.Checks test (answer worker test) outcome ∧
          results[position]? = some ⟨test, outcome⟩) ∧
    (∀ kept, kept.Sublist (pool.received tests state) →
      reports kept = reports (pool.received tests state) →
        ({ pool with deliver := fun _ => kept }.run tests state).result =
          (pool.run tests state).result) ∧
    ∀ outcome : TestCase → Outcome, (∀ worker, answer worker = outcome) →
      ∀ (τ : Type) (other : Pool τ) (otherState : τ), other.spawnFailure = none →
        other.options.decodeCheck = pool.options.decodeCheck → other.decoder = pool.decoder →
        (other.assembler.Responds fun _ test => .outcome (outcome test)) →
        Interleaving (other.sent tests otherState) (other.received tests otherState) →
          (other.run tests otherState).result = (pool.run tests state).result := by
  have result := result_of_outcomes spawned responds inOrder
  have calls : (pool.run tests state).calls = _ := calls_of_outcomes spawned responds
  refine ⟨⟨_, result, by simp, by simp [calls], ?_⟩, ?_, ?_⟩
  · intro position test testAt
    have inside : position < tests.length := (List.getElem?_eq_some_iff.mp testAt).1
    refine ⟨pool.workerAt tests position, _, fun number => pool.holds_iff tests inside, ?_,
      checks_iff.mpr rfl, ?_⟩
    · rw [calls, List.getElem?_mapIdx, testAt]
      rfl
    · rw [List.getElem?_mapIdx, testAt]
      rfl
  · intro kept _ sameReports
    exact result_eq_of_reports_eq spawned sameReports
  · intro outcome ignored τ other otherState otherSpawned sameCheck sameDecoder otherResponds otherInOrder
    obtain rfl : answer = fun _ => outcome := funext ignored
    rw [result_of_shared_outcomes otherSpawned otherResponds otherInOrder,
      result_of_shared_outcomes spawned responds inOrder, sameCheck, sameDecoder]

/-- Two workers whose bytes are checked. The first assembles every test to one byte, the second to another. -/
def unlikeWorkers : Pool Unit where
  options := { workerLimit := some 2 }
  hardware := 4
  decoder := fun bytes => [⟨1, false, false, .legacy, .normal, (bytes.headD 0).toNat, none⟩]
  assembler := .ofFunction fun worker _ => .outcome (.encoded [if worker = 0 then 0x90 else 0x91])
  deliver := fun sequences => sequences.reverse.flatten

private theorem sent_unlikeWorkers :
    unlikeWorkers.sent [nopTest 0, nopTest 1, nopTest 2] () =
      [[.results 0 [⟨nopTest 0, .encoded [0x90]⟩, ⟨nopTest 1, .encoded [0x90]⟩]],
        [.results 1 [⟨nopTest 2, .mismatched [0x91] "opcode 91 not in 90"⟩]]] := by
  decide +kernel

private theorem inOrder_unlikeWorkers :
    Interleaving (unlikeWorkers.sent [nopTest 0, nopTest 1, nopTest 2] ())
      (unlikeWorkers.received [nopTest 0, nopTest 1, nopTest 2] ()) := by
  rw [received, sent_unlikeWorkers]
  exact @Interleaving.take _ _ 1 _ _ _ rfl (@Interleaving.take _ _ 0 _ _ _ rfl (.done (by simp)))

/-- The test of the second worker is the last one. Its byte is not that of the test. -/
theorem run_results_interleaved_unlike :
    unlikeWorkers.options.decodeCheck = true ∧
    unlikeWorkers.received [nopTest 0, nopTest 1, nopTest 2] () =
      [.results 1 [⟨nopTest 2, .mismatched [0x91] "opcode 91 not in 90"⟩],
        .results 0 [⟨nopTest 0, .encoded [0x90]⟩, ⟨nopTest 1, .encoded [0x90]⟩]] ∧
    ∃ results, (unlikeWorkers.run [nopTest 0, nopTest 1, nopTest 2] ()).result = .ok results ∧
      results.length = 3 ∧ results[1]? = some ⟨nopTest 1, .encoded [0x90]⟩ ∧
      results[2]? = some ⟨nopTest 2, .mismatched [0x91] "opcode 91 not in 90"⟩ := by
  refine ⟨rfl, by rw [received, sent_unlikeWorkers]; rfl, ?_⟩
  obtain ⟨⟨results, result, lengthEq, -, each⟩, -, -⟩ :=
    run_results_interleaved rfl (Assembler.ofFunction_responds _) inOrder_unlikeWorkers
  refine ⟨results, result, lengthEq, ?_, ?_⟩
  · obtain ⟨worker, outcome, holds, -, checks, resultAt⟩ := each 1 (nopTest 1) rfl
    obtain rfl : 0 = worker := (holds 0).mp ⟨⟨0, 2⟩, rfl, by decide, by decide⟩
    rw [resultAt, checks_iff.mp checks]
    rfl
  · obtain ⟨worker, outcome, holds, -, checks, resultAt⟩ := each 2 (nopTest 2) rfl
    obtain rfl : 1 = worker := (holds 1).mp ⟨⟨2, 3⟩, rfl, by decide, by decide⟩
    rw [resultAt, checks_iff.mp checks]
    decide +kernel

end Pool

end OpcodeTable
