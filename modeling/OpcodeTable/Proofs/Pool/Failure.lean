import OpcodeTable.Proofs.Pool.Run

/-!
# Runs in which tests fail

A run fails if and only if some worker has a test that fails. It then ends with the first error that the
coordinator receives or, if it receives none, with the breakdown of the worker with the lowest number. No
worker goes on behind its first test that fails.
-/

namespace OpcodeTable

/-- The tests that a worker had assembled, in order. -/
def PoolRun.callsOf {σ : Type} (run : PoolRun σ) (worker : Nat) : List TestCase :=
  (run.calls.filter fun call => call.1 = worker).map Prod.snd

theorem firstFault?_eq_none_iff {respond : TestCase → Response} {tests : List TestCase} :
    firstFault? respond tests = none ↔ ∀ test ∈ tests, (respond test).isOutcome := by
  simp [firstFault?]

/-- The results of tests without failure are those of all tests. -/
theorem map_test_filterMap_testResult? {respond : TestCase → Response} {tests : List TestCase}
    (faultless : firstFault? respond tests = none) (check : Bool) (decoder : Decoder) :
    (tests.filterMap (testResult? respond check decoder)).map TestResult.test = tests := by
  rw [firstFault?_eq_none_iff] at faultless
  induction tests with
  | nil => rfl
  | cons test rest ih =>
      have outcome := faultless test List.mem_cons_self
      have later := ih fun other member => faultless other (List.mem_cons_of_mem test member)
      cases response : respond test with
      | outcome outcome => simp [testResult?, response, later]
      | failure error => simp [response, Response.isOutcome] at outcome
      | breakdown => simp [response, Response.isOutcome] at outcome

private theorem flatMap_range_ite {Element : Type} (elements : List Element) (count worker : Nat) :
    ((List.range count).flatMap fun index => if index = worker then elements else []) =
      if worker < count then elements else [] := by
  induction count with
  | zero => rfl
  | succ count ih =>
      rw [List.range_succ, List.flatMap_append, ih, List.flatMap_singleton]
      rcases Nat.lt_trichotomy worker count with lower | rfl | higher
      · simp [lower, Nat.lt_succ_of_lt lower, Nat.ne_of_gt lower]
      · simp
      · simp [Nat.not_lt_of_gt higher, Nat.ne_of_lt higher, Nat.not_lt.mpr higher]

namespace Pool

variable {σ : Type} {pool : Pool σ} {tests : List TestCase} {state : σ}
  {respond : Nat → TestCase → Response}

theorem callsOf_run (spawned : pool.spawnFailure = none) (responds : pool.assembler.Responds respond)
    (worker : Nat) :
    (pool.run tests state).callsOf worker =
      attempted (respond worker) (pool.testsOf tests worker) := by
  have own (number : Nat) :
      (((attempted (respond number) (pool.testsOf tests number)).map (Prod.mk number)).filter
        fun call => call.1 = worker).map Prod.snd =
          if number = worker then attempted (respond worker) (pool.testsOf tests worker) else [] := by
    by_cases same : number = worker
    · subst same
      simp [List.filter_map, Function.comp_def]
    · simp [same, List.filter_map, Function.comp_def]
  rw [PoolRun.callsOf, calls_run state spawned responds, List.filter_flatMap, List.map_flatMap]
  simp only [own, flatMap_range_ite]
  by_cases isWorker : worker < pool.workers tests
  · rw [if_pos isWorker]
  · rw [if_neg isWorker, testsOf_eq_nil (Nat.not_lt.mp isWorker)]
    rfl

section

variable (spawned : pool.spawnFailure = none) (responds : pool.assembler.Responds respond)
  (inOrder : Interleaving (pool.sent tests state) (pool.received tests state))

include spawned responds inOrder

theorem error_cases {error : PoolError} (result : (pool.run tests state).result = .error error) :
    (∃ worker test, (pool.received tests state).findSome? Message.fatal? = some (worker, error) ∧
      firstFault? (respond worker) (pool.testsOf tests worker) = some test ∧
      respond worker test = .failure error) ∨
    (pool.received tests state).findSome? Message.fatal? = none ∧
      ∃ worker, error = .crashed worker ∧ pool.breaksDown respond tests worker ∧
        ∀ earlier < worker, pool.breaksDown respond tests earlier = false := by
  rcases result_cases state spawned responds inOrder with
    ⟨worker, first, test, received, fault, failed, ended⟩ | ⟨worker, silent, broken, ended⟩ | ⟨-, ended⟩
  · obtain rfl : first = error := Except.error.inj (ended.symm.trans result)
    exact Or.inl ⟨worker, test, received, fault, failed⟩
  · obtain rfl : .crashed worker = error := Except.error.inj (ended.symm.trans result)
    obtain ⟨breaks, -, unbroken⟩ := List.find?_range_eq_some.mp broken
    refine Or.inr ⟨silent, worker, rfl, breaks, ?_⟩
    intro earlier lower
    simpa using unbroken earlier lower
  · cases ended.symm.trans result

theorem exists_error_iff :
    (∃ error, (pool.run tests state).result = .error error) ↔
      ∃ worker, ∃ test ∈ pool.testsOf tests worker, (respond worker test).isOutcome = false := by
  constructor
  · rintro ⟨error, result⟩
    obtain ⟨worker, test, fault⟩ : ∃ worker test,
        firstFault? (respond worker) (pool.testsOf tests worker) = some test := by
      rcases error_cases spawned responds inOrder result with
        ⟨worker, test, -, fault, -⟩ | ⟨-, worker, -, breaks, -⟩
      · exact ⟨worker, test, fault⟩
      · obtain ⟨test, fault, -⟩ := breaksDown_iff.mp breaks
        exact ⟨worker, test, fault⟩
    exact ⟨worker, test, mem_of_firstFault?_eq_some _ fault,
      isOutcome_of_firstFault?_eq_some _ fault⟩
  · rintro ⟨worker, test, member, failed⟩
    rcases result_cases state spawned responds inOrder with
      ⟨_, error, _, -, -, -, ended⟩ | ⟨_, -, -, ended⟩ | ⟨faultless, -⟩
    · exact ⟨error, ended⟩
    · exact ⟨_, ended⟩
    · have outcome := firstFault?_eq_none_iff.mp (faultless worker) test member
      rw [failed] at outcome
      exact Bool.noConfusion outcome

theorem map_test_of_result_eq_ok {results : List TestResult}
    (result : (pool.run tests state).result = .ok results) : results.map TestResult.test = tests := by
  rcases result_cases state spawned responds inOrder with
    ⟨_, _, _, -, -, -, ended⟩ | ⟨_, -, -, ended⟩ | ⟨faultless, ended⟩
  · cases ended.symm.trans result
  · cases ended.symm.trans result
  · obtain rfl := Except.ok.inj (ended.symm.trans result)
    have own (worker : Nat) : (pool.resultsOf respond tests worker).map TestResult.test =
        (pool.testsOf tests worker).map id := by
      rw [List.map_id, resultsOf, map_test_filterMap_testResult? (faultless worker)]
    simp only [List.map_flatMap, own]
    rw [flatMap_testsOf_const, List.map_id]

end

/-- In whatever order the messages of the workers interleave, a run fails if and only if the chunk of
some worker holds a test that fails on that worker; otherwise it has a result for every test. The error
of a run that fails is that of the first failure received, which is the failure on the first test of a
chunk that fails, or if no failure is received the breakdown of the worker with the lowest number of
those that break down. Missing results are never found: that error comes only from an assembler that
responds with it. No worker has a test assembled behind its first one that fails. -/
theorem run_errors_interleaved (spawned : pool.spawnFailure = none)
    (responds : pool.assembler.Responds respond)
    (inOrder : Interleaving (pool.sent tests state) (pool.received tests state)) :
    ((∃ error, (pool.run tests state).result = .error error) ↔
      ∃ worker, ∃ test ∈ pool.testsOf tests worker, (respond worker test).isOutcome = false) ∧
    (∀ results, (pool.run tests state).result = .ok results →
      results.map TestResult.test = tests) ∧
    (∀ error, (pool.run tests state).result = .error error →
      (∃ worker test, (pool.received tests state).findSome? Message.fatal? = some (worker, error) ∧
        firstFault? (respond worker) (pool.testsOf tests worker) = some test ∧
        respond worker test = .failure error) ∨
      (pool.received tests state).findSome? Message.fatal? = none ∧
        ∃ worker, error = .crashed worker ∧ pool.breaksDown respond tests worker ∧
          ∀ earlier < worker, pool.breaksDown respond tests earlier = false) ∧
    (∀ missing, (pool.run tests state).result = .error (.missingResults missing) →
      ∃ worker, ∃ test ∈ pool.testsOf tests worker,
        respond worker test = .failure (.missingResults missing)) ∧
    ∀ worker, (pool.run tests state).callsOf worker =
      attempted (respond worker) (pool.testsOf tests worker) := by
  refine ⟨exists_error_iff spawned responds inOrder,
    fun _ => map_test_of_result_eq_ok spawned responds inOrder,
    fun _ => error_cases spawned responds inOrder, ?_, callsOf_run spawned responds⟩
  intro missing result
  rcases error_cases spawned responds inOrder result with
    ⟨worker, test, -, fault, failed⟩ | ⟨-, _, crashed, -⟩
  · exact ⟨worker, test, mem_of_firstFault?_eq_some _ fault, failed⟩
  · exact PoolError.noConfusion crashed

/-- Responses that break a worker down on the second test and stop it with an error on the fourth. -/
def faulty (worker : Nat) (test : TestCase) : Response :=
  if test.row = 1 then .breakdown
  else if test.row = 3 then .failure (.scratch worker "full")
  else .outcome (.encoded [0x90])

private theorem received_faulty :
    (twoWorkers faulty).received ((List.range 5).map nopTest) () = [.fatal 1 (.scratch 1 "full")] := by
  decide

private theorem inOrder_faulty :
    Interleaving ((twoWorkers faulty).sent ((List.range 5).map nopTest) ())
      ((twoWorkers faulty).received ((List.range 5).map nopTest) ()) := by
  have sent : (twoWorkers faulty).sent ((List.range 5).map nopTest) () =
      [[], [.fatal 1 (.scratch 1 "full")]] := by decide
  rw [received_faulty, sent]
  exact @Interleaving.take _ _ 1 _ _ _ rfl (.done (by simp))

theorem run_errors_interleaved_faulty :
    ((twoWorkers faulty).run ((List.range 5).map nopTest) ()).result =
      .error (.scratch 1 "full") ∧
    ((twoWorkers faulty).run ((List.range 5).map nopTest) ()).callsOf 0 = [nopTest 0, nopTest 1] ∧
    ((twoWorkers faulty).run ((List.range 5).map nopTest) ()).callsOf 1 = [nopTest 3] := by
  obtain ⟨fails, -, errors, -, calls⟩ :=
    run_errors_interleaved rfl (Assembler.ofFunction_responds faulty) inOrder_faulty
  obtain ⟨error, result⟩ := fails.mpr ⟨0, nopTest 1, by decide, rfl⟩
  refine ⟨?_, (calls 0).trans (by decide), (calls 1).trans (by decide)⟩
  rcases errors error result with ⟨worker, _, first, -⟩ | ⟨silent, -⟩
  · rw [received_faulty] at first
    obtain ⟨rfl, rfl⟩ := Prod.mk.inj (Option.some.inj first)
    exact result
  · rw [received_faulty] at silent
    cases silent

end Pool

end OpcodeTable
