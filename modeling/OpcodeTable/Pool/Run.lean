import OpcodeTable.Options.Basic
import OpcodeTable.Pool.Plan
import OpcodeTable.Pool.Worker

/-!
# Runs of a worker pool

A coordinator starts a worker for each chunk, receives the messages of all of them in some order, and
puts their results together in the order of the tests. The first error that counts is, in this order,
that of a worker that could not be started, the first one received, and the breakdown of the worker with
the lowest number.
-/

namespace OpcodeTable

/-- What the coordinator has received: the results of each worker, and the first error. -/
structure Collection where
  slots : List (Option (List TestResult))
  fatal : Option PoolError
deriving DecidableEq, Repr

namespace Collection

def receive (collection : Collection) : Message → Collection
  | .progress _ => collection
  | .results worker results => { collection with slots := collection.slots.set worker (some results) }
  | .fatal _ error => { collection with fatal := collection.fatal.or (some error) }

/-- Put the results of workers together, counted from a starting worker. -/
def joinSlots : Nat → List (Option (List TestResult)) → Except PoolError (List TestResult)
  | _, [] => .ok []
  | worker, none :: _ => .error (.missingResults worker)
  | worker, some results :: rest =>
      match joinSlots (worker + 1) rest with
      | .error error => .error error
      | .ok others => .ok (results ++ others)

/-- The result of the run, given the workers that broke down. -/
def conclude (collection : Collection) (crashed : List Nat) : Except PoolError (List TestResult) :=
  match collection.fatal.or (crashed.head?.map PoolError.crashed) with
  | some error => .error error
  | none => joinSlots 0 collection.slots

end Collection

/-- A pool of workers that share an assembler. `spawnFailure` is the first worker that cannot be started, with
the reason, and `deliver` is the order in which the messages of the workers arrive. -/
structure Pool (σ : Type) where
  options : ValidationOptions
  hardware : Nat
  decoder : Decoder
  assembler : Assembler σ
  spawnFailure : Option (Nat × String) := none
  deliver : List (List Message) → List Message := List.flatten

/-- What came of a run. -/
structure PoolRun (σ : Type) where
  result : Except PoolError (List TestResult)
  events : List Event
  state : σ

namespace Pool

variable {σ : Type}

/-- The chunks of a number of tests. -/
def chunks (pool : Pool σ) (total : Nat) : List Chunk :=
  planChunks total
    (workerCount total pool.hardware pool.options.workerLimit pool.options.testsPerWorker)

/-- The chunks whose workers are started. -/
def spawnedChunks (pool : Pool σ) (total : Nat) : List Chunk :=
  match pool.spawnFailure with
  | none => pool.chunks total
  | some (worker, _) => (pool.chunks total).take worker

/-- The error of a worker that could not be started. -/
def spawnError? (pool : Pool σ) (total : Nat) : Option PoolError :=
  match pool.spawnFailure with
  | some (worker, reason) =>
      if worker < (pool.chunks total).length then some (.spawn worker reason) else none
  | none => none

def task (pool : Pool σ) (worker total : Nat) : WorkerTask σ where
  assembler := pool.assembler
  check := pool.options.decodeCheck
  decoder := pool.decoder
  worker := worker
  total := total

/-- Run workers on their chunks of the tests, counted from a starting worker. -/
def runWorkers (pool : Pool σ) (tests : List TestCase) :
    Nat → List Chunk → σ → List WorkerRun × σ
  | _, [], state => ([], state)
  | worker, chunk :: rest, state =>
      let slice := chunk.slice tests
      let (run, state) := (pool.task worker slice.length).run [] slice state
      let (runs, state) := pool.runWorkers tests (worker + 1) rest state
      (run :: runs, state)

/-- The numbers of the workers that broke down. -/
def crashedWorkers (runs : List WorkerRun) : List Nat :=
  runs.zipIdx.filterMap fun (run, worker) => if run.crashed then some worker else none

/-- Run all tests. What a worker that broke down still holds is released at the end. -/
def run (pool : Pool σ) (tests : List TestCase) (state : σ) : PoolRun σ :=
  let (runs, state) := pool.runWorkers tests 0 (pool.spawnedChunks tests.length) state
  let crashed := crashedWorkers runs
  let received := pool.deliver (runs.map WorkerRun.messages)
  let start : Collection :=
    { slots := List.replicate (pool.chunks tests.length).length none
      fatal := pool.spawnError? tests.length }
  { result := (received.foldl Collection.receive start).conclude crashed
    events := runs.flatMap WorkerRun.events ++ crashed.map Event.release
    state := crashed.foldl (fun state worker => pool.assembler.release worker state) state }

end Pool

/-- Run the test cases of a table. -/
def Table.validate {σ : Type} (pool : Pool σ) (table : Table) (state : σ) : PoolRun σ :=
  pool.run (table.cases pool.options.dialect pool.options.casesPerRow) state

end OpcodeTable
