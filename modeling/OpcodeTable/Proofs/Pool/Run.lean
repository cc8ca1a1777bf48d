import OpcodeTable.Proofs.Pool.Collection
import OpcodeTable.Proofs.Pool.Plan

/-!
# Runs by the tests of each worker

What the workers of a pool do, send and break down on follows from the tests in their chunks, and so does
what the coordinator receives, in whatever order the messages arrive.
-/

namespace OpcodeTable

/-- The tests that were assembled, with their workers. -/
def PoolRun.calls {σ : Type} (run : PoolRun σ) : List (Nat × TestCase) :=
  run.events.filterMap Event.call?

namespace Pool

variable {σ : Type} (pool : Pool σ) (tests : List TestCase) (state : σ)

/-- The number of workers. -/
def workers : Nat :=
  (pool.chunks tests.length).length

/-- The tests of a worker are those in its chunk. -/
def testsOf (worker : Nat) : List TestCase :=
  match (pool.chunks tests.length)[worker]? with
  | some chunk => chunk.slice tests
  | none => []

/-- The messages that each worker sends. -/
def sent : List (List Message) :=
  (pool.runWorkers tests 0 (pool.spawnedChunks tests.length) state).1.map WorkerRun.messages

/-- The messages of all workers, in the order in which the coordinator receives them. -/
def received : List Message :=
  pool.deliver (pool.sent tests state)

theorem map_chunks_zipIdx {Value : Type} (handle : Nat → List TestCase → Value) :
    ((pool.chunks tests.length).zipIdx.map fun (chunk, worker) =>
        handle worker (chunk.slice tests)) =
      (List.range (pool.workers tests)).map fun worker => handle worker (pool.testsOf tests worker) := by
  refine List.ext_getElem (by simp [workers]) fun worker inside _ => ?_
  have isWorker : worker < (pool.chunks tests.length).length := by simpa using inside
  simp [testsOf, isWorker]

/-- The chunk of a worker holds a position. -/
def Holds (worker position : Nat) : Prop :=
  ∃ chunk, (pool.chunks tests.length)[worker]? = some chunk ∧ chunk.Contains position

/-- The worker of the test at a position: the quotient by the size of the chunks. -/
def workerAt (position : Nat) : Nat :=
  position / ceilDiv tests.length
    (workerCount tests.length pool.hardware pool.options.workerLimit pool.options.testsPerWorker)

theorem holds_iff {worker position : Nat} (inside : position < tests.length) :
    pool.Holds tests worker position ↔ worker = pool.workerAt tests position :=
  planChunks_contains_iff (workerCount_pos (Nat.zero_lt_of_lt inside) _ _ _) inside

/-- The tests of all workers, each handled with its worker, are all tests in their order. -/
theorem flatMap_testsOf {Value : Type} (handle : Nat → TestCase → Value) :
    ((List.range (pool.workers tests)).flatMap fun worker =>
        (pool.testsOf tests worker).map (handle worker)) =
      tests.mapIdx fun position => handle (pool.workerAt tests position) := by
  rw [List.flatMap_def,
    ← pool.map_chunks_zipIdx tests fun worker slice => slice.map (handle worker), ← List.flatMap_def]
  exact flatMap_slice_planChunks tests handle fun positive => workerCount_pos positive _ _ _

/-- Handled without their workers, the tests of all workers are all tests. -/
theorem flatMap_testsOf_const {Value : Type} (handle : TestCase → Value) :
    ((List.range (pool.workers tests)).flatMap fun worker =>
        (pool.testsOf tests worker).map handle) = tests.map handle := by
  refine (pool.flatMap_testsOf tests fun _ => handle).trans (List.ext_getElem? fun position => ?_)
  rw [List.getElem?_mapIdx, List.getElem?_map]

variable {pool tests}

theorem testsOf_eq_nil {worker : Nat} (outside : pool.workers tests ≤ worker) :
    pool.testsOf tests worker = [] := by
  rw [testsOf, List.getElem?_eq_none outside]

theorem lt_workers_of_mem_testsOf {worker : Nat} {test : TestCase}
    (member : test ∈ pool.testsOf tests worker) : worker < pool.workers tests := by
  by_contra outside
  rw [testsOf_eq_nil (Nat.not_lt.mp outside)] at member
  exact List.not_mem_nil member

theorem map_runWorkers {Value : Type} {view : WorkerRun → Value} {expected : Nat → List TestCase → Value}
    (viewed : ∀ worker slice state,
      view ((pool.task worker slice.length).run [] slice state).1 = expected worker slice)
    (start : Nat) (chunks : List Chunk) :
    (pool.runWorkers tests start chunks state).1.map view =
      (chunks.zipIdx start).map fun (chunk, worker) => expected worker (chunk.slice tests) := by
  induction chunks generalizing start state with
  | nil => rfl
  | cons chunk rest ih =>
      rw [List.zipIdx_cons, List.map_cons]
      exact congrArg₂ List.cons (viewed _ _ _) (ih _ _)

/-- The results of a worker, as far as its tests have outcomes. -/
def resultsOf (pool : Pool σ) (respond : Nat → TestCase → Response) (tests : List TestCase)
    (worker : Nat) : List TestResult :=
  (pool.testsOf tests worker).filterMap
    (testResult? (respond worker) pool.options.decodeCheck pool.decoder)

/-- The first test of a worker that fails breaks the worker down. -/
def breaksDown (pool : Pool σ) (respond : Nat → TestCase → Response) (tests : List TestCase)
    (worker : Nat) : Bool :=
  (firstFault? (respond worker) (pool.testsOf tests worker)).map (respond worker) == some .breakdown

theorem breaksDown_iff {respond : Nat → TestCase → Response} {worker : Nat} :
    pool.breaksDown respond tests worker ↔
      ∃ test, firstFault? (respond worker) (pool.testsOf tests worker) = some test ∧
        respond worker test = .breakdown := by
  simp [breaksDown]

section

variable {respond : Nat → TestCase → Response} (spawned : pool.spawnFailure = none)
  (responds : pool.assembler.Responds respond)

include spawned responds

private theorem map_spawned (tests : List TestCase) {Value : Type} {view : WorkerRun → Value}
    {expected : Nat → List TestCase → Value}
    (viewed : ∀ worker slice run,
      WorkerRun.Follows run (respond worker) pool.options.decodeCheck pool.decoder worker [] slice →
        view run = expected worker slice) :
    (pool.runWorkers tests 0 (pool.spawnedChunks tests.length) state).1.map view =
      (List.range (pool.workers tests)).map fun worker =>
        expected worker (pool.testsOf tests worker) := by
  rw [← map_chunks_zipIdx pool tests expected, spawnedChunks, spawned]
  refine map_runWorkers state (fun worker slice state => viewed worker slice _ ?_) 0 _
  exact (pool.task worker slice.length).run_follows responds [] slice state

theorem calls_run :
    (pool.run tests state).calls =
      (List.range (pool.workers tests)).flatMap fun worker =>
        (attempted (respond worker) (pool.testsOf tests worker)).map (Prod.mk worker) := by
  have released (crashed : List Nat) : (crashed.map Event.release).filterMap Event.call? = [] := by
    simp [List.filterMap_map, Event.call?]
  rw [PoolRun.calls, run, List.filterMap_append, released, List.append_nil, List.filterMap_flatMap,
    List.flatMap_def, List.flatMap_def]
  exact congrArg List.flatten
    (map_spawned state spawned responds tests fun worker slice run follows => follows.calls_eq)

theorem reports_sent :
    reports (pool.sent tests state).flatten =
      (List.range (pool.workers tests)).filterMap fun worker =>
        finalMessage? (respond worker) worker (pool.testsOf tests worker)
          (pool.resultsOf respond tests worker) := by
  rw [reports, List.filter_flatten, sent, List.map_map, List.filterMap_eq_flatMap_toList,
    List.flatMap_def]
  exact congrArg List.flatten
    (map_spawned state spawned responds tests fun worker slice run follows => follows.reports_eq)

theorem crashedWorkers_run :
    crashedWorkers (pool.runWorkers tests 0 (pool.spawnedChunks tests.length) state).1 =
      (List.range (pool.workers tests)).filter (pool.breaksDown respond tests) := by
  have mapped := map_spawned state spawned responds tests
    fun worker slice run follows => follows.crashed_eq
  generalize (pool.runWorkers tests 0 (pool.spawnedChunks tests.length) state).1 = runs at mapped ⊢
  have numbered : crashedWorkers runs = (runs.map WorkerRun.crashed).zipIdx.filterMap
      fun (crashed, worker) => if crashed then some worker else none := by
    rw [List.zipIdx_map, List.filterMap_map]
    rfl
  rw [numbered, mapped, List.zipIdx_map, zipIdx_range, List.map_map, List.filterMap_map,
    ← List.filterMap_eq_filter]
  rfl

omit responds in
theorem result_run :
    (pool.run tests state).result =
      ((pool.received tests state).foldl Collection.receive
        ⟨List.replicate (pool.workers tests) none, none⟩).conclude
          (crashedWorkers (pool.runWorkers tests 0 (pool.spawnedChunks tests.length) state).1) := by
  have noError : pool.spawnError? tests.length = none := by rw [spawnError?, spawned]
  rw [run, noError]
  rfl

/-- The result is the first error received, or else the breakdown of the first worker that breaks down,
or else what the coordinator has collected. -/
theorem result_run_eq :
    (pool.run tests state).result =
      match (pool.received tests state).findSome? Message.fatal?,
          (List.range (pool.workers tests)).find? (pool.breaksDown respond tests) with
      | some (_, error), _ => .error error
      | none, some worker => .error (.crashed worker)
      | none, none => Collection.joinSlots 0 ((pool.received tests state).foldl Collection.receive
          ⟨List.replicate (pool.workers tests) none, none⟩).slots := by
  rw [result_run state spawned, crashedWorkers_run state spawned responds, Collection.conclude,
    Collection.fatal_foldl_receive, List.head?_filter]
  cases (pool.received tests state).findSome? Message.fatal? with
  | some first => rfl
  | none => cases (List.range (pool.workers tests)).find? (pool.breaksDown respond tests) <;> rfl

section

variable (inOrder : Interleaving (pool.sent tests state) (pool.received tests state))

include inOrder

private theorem mem_reports_received_iff (message : Message) :
    message ∈ reports (pool.received tests state) ↔
      ∃ worker < pool.workers tests,
        finalMessage? (respond worker) worker (pool.testsOf tests worker)
          (pool.resultsOf respond tests worker) = some message := by
  -- Which messages arrive is all that counts from here on; only the first error looks at their order.
  have sameReports : (reports (pool.received tests state)).Perm
      (reports (pool.sent tests state).flatten) := inOrder.perm.filter _
  rw [sameReports.mem_iff, reports_sent state spawned responds]
  simp [List.mem_filterMap]

theorem mem_received_results_iff {worker : Nat} {results : List TestResult} :
    .results worker results ∈ pool.received tests state ↔
      worker < pool.workers tests ∧
        firstFault? (respond worker) (pool.testsOf tests worker) = none ∧
        results = pool.resultsOf respond tests worker := by
  have reported := mem_reports_received_iff state spawned responds inOrder (.results worker results)
  simp only [mem_reports_iff, Message.isProgress, and_true] at reported
  simp [reported, finalMessage?_eq_some_iff]

theorem mem_received_fatal_iff {worker : Nat} {error : PoolError} :
    .fatal worker error ∈ pool.received tests state ↔
      worker < pool.workers tests ∧
        ∃ test, firstFault? (respond worker) (pool.testsOf tests worker) = some test ∧
          respond worker test = .failure error := by
  have reported := mem_reports_received_iff state spawned responds inOrder (.fatal worker error)
  simp only [mem_reports_iff, Message.isProgress, and_true] at reported
  simp [reported, finalMessage?_eq_some_iff]

/-- If no test fails the coordinator has the results of all workers in the end. -/
theorem slots_of_faultless
    (faultless : ∀ worker, firstFault? (respond worker) (pool.testsOf tests worker) = none) :
    ((pool.received tests state).foldl Collection.receive
        ⟨List.replicate (pool.workers tests) none, none⟩).slots =
      ((List.range (pool.workers tests)).map (pool.resultsOf respond tests)).map some := by
  apply Collection.slots_foldl_receive
  · simp
  · intro worker results
    rw [mem_received_results_iff state spawned responds inOrder, List.getElem?_map]
    by_cases isWorker : worker < pool.workers tests
    · simp [isWorker, faultless worker, eq_comm]
    · simp [isWorker]

/-- A worker with a test that fails does not stay unnoticed: an error is received from it, or it breaks
down. -/
theorem faultless_of_silent
    (noFatal : (pool.received tests state).findSome? Message.fatal? = none)
    (noCrash : (List.range (pool.workers tests)).find? (pool.breaksDown respond tests) = none)
    (worker : Nat) : firstFault? (respond worker) (pool.testsOf tests worker) = none := by
  by_contra faulty
  obtain ⟨test, fault⟩ := Option.ne_none_iff_exists'.mp faulty
  have isWorker := lt_workers_of_mem_testsOf (mem_of_firstFault?_eq_some _ fault)
  cases response : respond worker test with
  | outcome outcome =>
      have failed := isOutcome_of_firstFault?_eq_some _ fault
      rw [response] at failed
      exact Bool.noConfusion failed
  | failure error =>
      have member := (mem_received_fatal_iff state spawned responds inOrder).mpr
        ⟨isWorker, test, fault, response⟩
      exact Option.some_ne_none _ (List.findSome?_eq_none_iff.mp noFatal _ member)
  | breakdown =>
      have unbroken := List.find?_eq_none.mp noCrash worker (List.mem_range.mpr isWorker)
      exact unbroken (breaksDown_iff.mpr ⟨test, fault, response⟩)

/-- How a run ends: by the error of the first test that fails on some worker, by the first breakdown, or
with the results of all workers. -/
theorem result_cases :
    (∃ worker error test, (pool.received tests state).findSome? Message.fatal? = some (worker, error) ∧
      firstFault? (respond worker) (pool.testsOf tests worker) = some test ∧
      respond worker test = .failure error ∧ (pool.run tests state).result = .error error) ∨
    (∃ worker, (pool.received tests state).findSome? Message.fatal? = none ∧
      (List.range (pool.workers tests)).find? (pool.breaksDown respond tests) = some worker ∧
      (pool.run tests state).result = .error (.crashed worker)) ∨
    ((∀ worker, firstFault? (respond worker) (pool.testsOf tests worker) = none) ∧
      (pool.run tests state).result =
        .ok ((List.range (pool.workers tests)).flatMap (pool.resultsOf respond tests))) := by
  rw [result_run_eq state spawned responds]
  cases first : (pool.received tests state).findSome? Message.fatal? with
  | some fatal =>
      obtain ⟨message, member, carried⟩ := List.exists_of_findSome?_eq_some first
      rw [Message.fatal?_eq_some_iff] at carried
      subst carried
      obtain ⟨-, test, fault, failed⟩ :=
        (mem_received_fatal_iff state spawned responds inOrder).mp member
      exact Or.inl ⟨fatal.1, fatal.2, test, rfl, fault, failed, rfl⟩
  | none =>
      right
      cases broken : (List.range (pool.workers tests)).find? (pool.breaksDown respond tests) with
      | some worker => exact Or.inl ⟨worker, rfl, rfl, rfl⟩
      | none =>
          have faultless := faultless_of_silent state spawned responds inOrder first broken
          refine Or.inr ⟨faultless, ?_⟩
          rw [slots_of_faultless state spawned responds inOrder faultless,
            Collection.joinSlots_map_some, List.flatMap_def]

end

end

/-- A pool of at most two workers, the last of which is heard first. -/
def twoWorkers (respond : Nat → TestCase → Response) : Pool Unit where
  options := { workerLimit := some 2, decodeCheck := false }
  hardware := 4
  decoder := fun _ => []
  assembler := .ofFunction respond
  deliver := fun sequences => sequences.reverse.flatten

end Pool

/-- A test of an instruction without operands. -/
def nopTest (row : Nat) : TestCase :=
  ⟨⟨"nop", [], ⟨"NORMAL", .empty, [0x90], false, none, none, none, []⟩⟩, row, []⟩

end OpcodeTable
