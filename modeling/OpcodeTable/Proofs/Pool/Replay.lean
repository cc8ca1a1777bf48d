import OpcodeTable.Proofs.Pool.Run

/-!
# Replays of a run

The events of a run, replayed on the assembler from the state before it, lead to the state after it. On
the way they show the response to every test.
-/

namespace OpcodeTable

namespace Assembler

variable {σ : Type} (assembler : Assembler σ)

/-- What an event does to the surroundings. -/
def undergo (state : σ) : Event → σ
  | .call worker test => (assembler.assemble worker test state).2
  | .release worker => assembler.release worker state
  | .send _ => state

/-- The response to the test of an event. -/
def response? (state : σ) : Event → Option (TestCase × Response)
  | .call worker test => some (test, (assembler.assemble worker test state).1)
  | _ => none

/-- The responses to the tests of a list of events, in order. -/
def responses : σ → List Event → List (TestCase × Response)
  | _, [] => []
  | state, event :: rest =>
      (assembler.response? state event).toList ++ responses (assembler.undergo state event) rest

theorem responses_append (state : σ) (events later : List Event) :
    assembler.responses state (events ++ later) =
      assembler.responses state events ++
        assembler.responses (events.foldl assembler.undergo state) later := by
  induction events generalizing state with
  | nil => rfl
  | cons event rest ih =>
      rw [List.cons_append, responses, responses, ih, List.append_assoc, List.foldl_cons]

theorem responses_release (state : σ) (workers : List Nat) :
    assembler.responses state (workers.map Event.release) = [] := by
  induction workers generalizing state with
  | nil => rfl
  | cons worker rest ih => exact ih _

theorem undergo_progressEvents (state : σ) (worker completed total : Nat) :
    (progressEvents worker completed total).foldl assembler.undergo state = state := by
  rw [progressEvents]
  split <;> rfl

theorem responses_progressEvents (state : σ) (worker completed total : Nat) :
    assembler.responses state (progressEvents worker completed total) = [] := by
  rw [progressEvents]
  split <;> rfl

end Assembler

namespace WorkerTask

variable {σ : Type} (task : WorkerTask σ)

/-- The result of a test with an outcome, after the check of its bytes. -/
def result (test : TestCase) (outcome : Outcome) : TestResult :=
  ⟨test, checkedOutcome task.check task.decoder test.variant outcome⟩

/-- A worker has its next test assembled and then breaks down, gives up or goes on. -/
theorem run_cons_cases (results : List TestResult) (test : TestCase) (rest : List TestCase)
    (state : σ) :
    (∃ next, task.assembler.assemble task.worker test state = (.breakdown, next) ∧
      task.run results (test :: rest) state = (⟨[.call task.worker test], true⟩, next)) ∨
    (∃ error next, task.assembler.assemble task.worker test state = (.failure error, next) ∧
      task.run results (test :: rest) state =
        (⟨[.call task.worker test, .release task.worker, .send (.fatal task.worker error)], false⟩,
          task.assembler.release task.worker next)) ∨
    ∃ outcome next later final,
      task.assembler.assemble task.worker test state = (.outcome outcome, next) ∧
      task.run (task.result test outcome :: results) rest next = (later, final) ∧
      task.run results (test :: rest) state =
        (⟨.call task.worker test ::
            (progressEvents task.worker (results.length + 1) task.total ++ later.events),
          later.crashed⟩, final) := by
  cases assembled : task.assembler.assemble task.worker test state with
  | mk response next =>
      cases response with
      | breakdown =>
          left
          exact ⟨next, rfl, by rw [run, assembled]⟩
      | failure error =>
          right; left
          exact ⟨error, next, rfl, by rw [run, assembled]⟩
      | outcome outcome =>
          right; right
          refine ⟨outcome, next, _, _, rfl, rfl, ?_⟩
          rw [run, assembled]
          rfl

theorem undergo_run (results : List TestResult) (tests : List TestCase) (state : σ) :
    (task.run results tests state).1.events.foldl task.assembler.undergo state =
      (task.run results tests state).2 := by
  induction tests generalizing results state with
  | nil => rfl
  | cons test rest ih =>
      obtain ⟨next, assembled, ran⟩ | ⟨error, next, assembled, ran⟩ |
        ⟨outcome, next, later, final, assembled, ranLater, ran⟩ :=
          task.run_cons_cases results test rest state
      all_goals
        have called : task.assembler.undergo state (.call task.worker test) = next := by
          rw [Assembler.undergo, assembled]
        rw [ran, List.foldl_cons, called]
      · rfl
      · rfl
      · have finished := ih (task.result test outcome :: results) next
        rw [ranLater] at finished
        rw [List.foldl_append, Assembler.undergo_progressEvents, finished]

end WorkerTask

namespace Pool

variable {σ : Type} {pool : Pool σ} {tests : List TestCase} {state : σ}

/-- What the workers that are started do. -/
def runs (pool : Pool σ) (tests : List TestCase) (state : σ) : List WorkerRun :=
  (pool.runWorkers tests 0 (pool.spawnedChunks tests.length) state).1

theorem mem_crashedWorkers_iff {runs : List WorkerRun} {worker : Nat} :
    worker ∈ crashedWorkers runs ↔ ∃ run, runs[worker]? = some run ∧ run.crashed := by
  simp [crashedWorkers, List.mem_filterMap, List.mem_zipIdx_iff_getElem?]

theorem length_runWorkers (start : Nat) (chunks : List Chunk) :
    (pool.runWorkers tests start chunks state).1.length = chunks.length := by
  induction chunks generalizing start state with
  | nil => rfl
  | cons chunk rest ih => exact congrArg (· + 1) (ih (start + 1))

theorem undergo_runWorkers (start : Nat) (chunks : List Chunk) (state : σ) :
    ((pool.runWorkers tests start chunks state).1.flatMap WorkerRun.events).foldl
      pool.assembler.undergo state = (pool.runWorkers tests start chunks state).2 := by
  induction chunks generalizing start state with
  | nil => rfl
  | cons chunk rest ih =>
      have own := (pool.task start (chunk.slice tests).length).undergo_run [] (chunk.slice tests) state
      rw [runWorkers, List.flatMap_cons, List.foldl_append]
      exact own.symm ▸ ih (start + 1) _

theorem undergo_run (pool : Pool σ) (tests : List TestCase) (state : σ) :
    (pool.run tests state).events.foldl pool.assembler.undergo state = (pool.run tests state).state := by
  rw [run, List.foldl_append, undergo_runWorkers, List.foldl_map]
  rfl

end Pool

end OpcodeTable
