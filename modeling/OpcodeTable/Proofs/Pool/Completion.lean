import OpcodeTable.Proofs.Pool.Replay

/-!
# Runs that succeed

A run succeeds only if all workers are started and all their tests have outcomes. A replay of it then
shows every test once, in order, and its results are those outcomes after the check of the bytes.
-/

namespace OpcodeTable

/-- A test that has an outcome, as a replay shows it. -/
def shownOutcome (tested : TestCase × Outcome) : TestCase × Response :=
  (tested.1, .outcome tested.2)

theorem messages_behind_call (worker completed total : Nat) (test : TestCase) (later : WorkerRun)
    (crashed : Bool) :
    WorkerRun.messages
        ⟨.call worker test :: (progressEvents worker completed total ++ later.events), crashed⟩ =
      (progressEvents worker completed total).filterMap Event.message? ++ later.messages :=
  List.filterMap_append

/-- A worker that neither breaks down nor sends an error has outcomes for all its tests. -/
theorem WorkerTask.run_complete {σ : Type} (task : WorkerTask σ) {results : List TestResult}
    {tests : List TestCase} {state : σ} (alive : (task.run results tests state).1.crashed = false)
    (silent : ∀ error, .fatal task.worker error ∉ (task.run results tests state).1.messages) :
    ∃ record : List (TestCase × Outcome), record.map Prod.fst = tests ∧
      task.assembler.responses state (task.run results tests state).1.events =
        record.map shownOutcome ∧
      reports (task.run results tests state).1.messages =
        [.results task.worker (results.reverse ++ record.map fun tested =>
          task.result tested.1 tested.2)] := by
  induction tests generalizing results state with
  | nil =>
      refine ⟨[], rfl, rfl, ?_⟩
      rw [List.map_nil, List.append_nil]
      rfl
  | cons test rest ih =>
      obtain ⟨next, -, ran⟩ | ⟨error, next, -, ran⟩ |
        ⟨outcome, next, later, final, assembled, ranLater, ran⟩ :=
          task.run_cons_cases results test rest state
      · rw [ran] at alive
        cases alive
      · rw [ran] at silent
        refine absurd ?_ (silent error)
        simp [WorkerRun.messages, Event.message?]
      · rw [ran] at alive silent ⊢
        have aliveLater : (task.run (task.result test outcome :: results) rest next).1.crashed =
            false := by
          rw [ranLater]
          exact alive
        have silentLater : ∀ error, .fatal task.worker error ∉
            (task.run (task.result test outcome :: results) rest next).1.messages := by
          intro error sent
          rw [ranLater] at sent
          apply silent error
          rw [messages_behind_call]
          exact List.mem_append_right _ sent
        obtain ⟨record, testsEq, responsesEq, reportsEq⟩ := ih aliveLater silentLater
        rw [ranLater] at responsesEq reportsEq
        refine ⟨(test, outcome) :: record, ?_, ?_, ?_⟩
        · rw [List.map_cons, testsEq]
        · have called : task.assembler.undergo state (.call task.worker test) = next := by
            rw [Assembler.undergo, assembled]
          rw [Assembler.responses, called, Assembler.responses_append,
            Assembler.responses_progressEvents, Assembler.undergo_progressEvents, responsesEq,
            Assembler.response?, assembled]
          rfl
        · rw [messages_behind_call, reports_append, reports_progressEvents]
          simpa using reportsEq

namespace Pool

variable {σ : Type} {pool : Pool σ} {tests : List TestCase} {state : σ}

/-- The result of a test with an outcome, after the check of its bytes. -/
def checkedResult (pool : Pool σ) (tested : TestCase × Outcome) : TestResult :=
  ⟨tested.1, checkedOutcome pool.options.decodeCheck pool.decoder tested.1.variant tested.2⟩

/-- What a replay of workers shows, and what they send, if all their tests have outcomes. -/
structure Complete (pool : Pool σ) (tests : List TestCase) (start : Nat) (state : σ)
    (runs : List WorkerRun) (record : List (TestCase × Outcome)) (lists : List (List TestResult)) :
    Prop where
  tests_eq : record.map Prod.fst = tests
  responses_eq : pool.assembler.responses state (runs.flatMap WorkerRun.events) =
    record.map shownOutcome
  length_eq : lists.length = runs.length
  results_eq : lists.flatten = record.map pool.checkedResult
  reports_eq : reports (runs.flatMap WorkerRun.messages) =
    (lists.zipIdx start).map fun (results, worker) => .results worker results

theorem runWorkers_complete {start : Nat} {chunks : List Chunk}
    (alive : ∀ run ∈ (pool.runWorkers tests start chunks state).1, run.crashed = false)
    (silent : ∀ run ∈ (pool.runWorkers tests start chunks state).1, ∀ worker error,
      .fatal worker error ∉ run.messages) :
    ∃ record lists, pool.Complete (chunks.flatMap fun chunk => chunk.slice tests) start state
      (pool.runWorkers tests start chunks state).1 record lists := by
  induction chunks generalizing start state with
  | nil => exact ⟨[], [], rfl, rfl, rfl, rfl, rfl⟩
  | cons chunk rest ih =>
      rcases ran : (pool.task start (chunk.slice tests).length).run [] (chunk.slice tests) state with
        ⟨own, next⟩
      rcases ranOthers : pool.runWorkers tests (start + 1) rest next with ⟨others, final⟩
      have runsEq : pool.runWorkers tests start (chunk :: rest) state = (own :: others, final) := by
        simp only [runWorkers, ran, ranOthers]
      rw [runsEq] at alive silent ⊢
      have complete := @WorkerTask.run_complete _ (pool.task start (chunk.slice tests).length) []
        (chunk.slice tests) state
      rw [ran] at complete
      obtain ⟨record, testsEq, responsesEq, reportsEq⟩ :=
        complete (alive own List.mem_cons_self) (silent own List.mem_cons_self start)
      obtain ⟨laterRecord, lists, later⟩ := @ih next (start + 1)
        (ranOthers ▸ fun run member => alive run (List.mem_cons_of_mem own member))
        (ranOthers ▸ fun run member => silent run (List.mem_cons_of_mem own member))
      have reached : own.events.foldl pool.assembler.undergo state = next := by
        have undergone :=
          (pool.task start (chunk.slice tests).length).undergo_run [] (chunk.slice tests) state
        rwa [ran] at undergone
      rw [ranOthers] at later
      refine ⟨record ++ laterRecord, record.map pool.checkedResult :: lists, ?_, ?_, ?_, ?_, ?_⟩
      · rw [List.map_append, testsEq, later.tests_eq, List.flatMap_cons]
      · rw [List.flatMap_cons, Assembler.responses_append, reached, later.responses_eq, List.map_append]
        exact congrArg (· ++ _) responsesEq
      · rw [List.length_cons, List.length_cons, later.length_eq]
      · rw [List.flatten_cons, later.results_eq, List.map_append]
      · rw [List.flatMap_cons, reports_append, reportsEq, later.reports_eq, List.zipIdx_cons]
        rfl

/-- A run that succeeds has no worker that could not be started, no broken worker and no error. -/
theorem of_result_eq_ok {results : List TestResult} (ok : (pool.run tests state).result = .ok results) :
    pool.spawnedChunks tests.length = pool.chunks tests.length ∧
    crashedWorkers (pool.runs tests state) = [] ∧
    (pool.received tests state).findSome? Message.fatal? = none ∧
    Collection.joinSlots 0 ((pool.received tests state).foldl Collection.receive
      ⟨List.replicate (pool.workers tests) none, none⟩).slots = .ok results := by
  change Collection.conclude ((pool.received tests state).foldl Collection.receive
    ⟨List.replicate (pool.workers tests) none, pool.spawnError? tests.length⟩)
      (crashedWorkers (pool.runs tests state)) = .ok results at ok
  rw [Collection.conclude, Collection.fatal_foldl_receive] at ok
  split at ok
  · cases ok
  next noError =>
    rw [Option.or_eq_none_iff, Option.or_eq_none_iff, Option.map_eq_none_iff, Option.map_eq_none_iff,
      List.head?_eq_none_iff] at noError
    obtain ⟨⟨noSpawnError, noFatal⟩, unbroken⟩ := noError
    change pool.spawnError? tests.length = none at noSpawnError
    rw [noSpawnError] at ok
    refine ⟨?_, unbroken, noFatal, ok⟩
    rw [spawnError?] at noSpawnError
    rw [spawnedChunks]
    split at noSpawnError
    next failing reason failure =>
      have outside : (pool.chunks tests.length).length ≤ failing := by simpa using noSpawnError
      rw [failure]
      exact List.take_of_length_le outside
    next started => rw [started]

theorem flatMap_slice_chunks (pool : Pool σ) (tests : List TestCase) :
    ((pool.chunks tests.length).flatMap fun chunk => chunk.slice tests) = tests := by
  have whole := pool.flatMap_testsOf_const tests id
  have slices := pool.map_chunks_zipIdx tests fun _ slice => slice
  have unnumbered : ((pool.chunks tests.length).zipIdx.map fun numbered => numbered.1.slice tests) =
      (pool.chunks tests.length).map fun chunk => chunk.slice tests := by
    conv_rhs => rw [← List.zipIdx_map_fst 0 (pool.chunks tests.length), List.map_map]
    rfl
  rw [unnumbered] at slices
  simp only [List.map_id, List.flatMap_def] at whole
  rw [List.flatMap_def, slices, whole]

/-- The results of a run that succeeds are the outcomes that its replay shows, one for each test, after the
check of their bytes. -/
theorem complete_of_ok {results : List TestResult}
    (inOrder : Interleaving (pool.sent tests state) (pool.received tests state))
    (ok : (pool.run tests state).result = .ok results) :
    ∃ record : List (TestCase × Outcome), record.map Prod.fst = tests ∧
      pool.assembler.responses state (pool.run tests state).events = record.map shownOutcome ∧
      results = record.map pool.checkedResult := by
  obtain ⟨spawned, unbroken, noFatal, joined⟩ := of_result_eq_ok ok
  have mem_received {message : Message} : message ∈ pool.received tests state ↔
      message ∈ (pool.runs tests state).flatMap WorkerRun.messages := by
    rw [inOrder.perm.mem_iff, List.flatMap_def]
    rfl
  have alive : ∀ run ∈ pool.runs tests state, run.crashed = false := by
    intro run member
    by_contra crashed
    obtain ⟨worker, found⟩ := List.mem_iff_getElem?.mp member
    have broken : worker ∈ crashedWorkers (pool.runs tests state) :=
      mem_crashedWorkers_iff.mpr ⟨run, found, by simpa using crashed⟩
    rw [unbroken] at broken
    exact List.not_mem_nil broken
  have silent : ∀ run ∈ pool.runs tests state, ∀ worker error, .fatal worker error ∉ run.messages := by
    intro run member worker error sent
    have received := mem_received.mpr (List.mem_flatMap.mpr ⟨run, member, sent⟩)
    exact Option.some_ne_none _ (List.findSome?_eq_none_iff.mp noFatal _ received)
  obtain ⟨record, lists, complete⟩ := runWorkers_complete alive silent
  have listed : ∀ worker given, .results worker given ∈ pool.received tests state ↔
      lists[worker]? = some given := by
    intro worker given
    have reported : .results worker given ∈ reports ((pool.runs tests state).flatMap WorkerRun.messages) ↔
        lists[worker]? = some given := by
      rw [runs, complete.reports_eq]
      simp [List.mem_zipIdx_iff_getElem?]
    rw [mem_received, ← reported, mem_reports_iff]
    simp [Message.isProgress]
  have lengthEq : lists.length = pool.workers tests := by
    rw [complete.length_eq, length_runWorkers, spawned, workers]
  rw [Collection.slots_foldl_receive lengthEq listed, Collection.joinSlots_map_some] at joined
  refine ⟨record, ?_, ?_, ?_⟩
  · rw [complete.tests_eq, spawned, flatMap_slice_chunks]
  · rw [run, Assembler.responses_append, Assembler.responses_release, List.append_nil]
    exact complete.responses_eq
  · rw [← complete.results_eq]
    exact (Except.ok.inj joined).symm

end Pool

end OpcodeTable
