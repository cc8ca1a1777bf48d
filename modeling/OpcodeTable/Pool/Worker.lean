import OpcodeTable.Corpus
import OpcodeTable.Pool.Error
import OpcodeTable.Verification

/-!
# Workers

A worker assembles the tests of its chunk in order. Every ten tests it reports its progress; at the end
it releases what it holds and sends all its results. If the assembler fails it releases what it holds,
sends the error and stops; if it breaks down it stops at once.
-/

namespace OpcodeTable

/-- What comes of an attempt to assemble a test: the assembler ran, it could not be used, or the worker broke
down. -/
inductive Response where
  | outcome (outcome : Outcome)
  | failure (error : PoolError)
  | breakdown
deriving DecidableEq, Repr

/-- An assembler that workers share, over a state of its surroundings. What it holds for a worker is given up
at the release. -/
structure Assembler (σ : Type) where
  assemble : Nat → TestCase → σ → Response × σ
  release : Nat → σ → σ

/-- An assembler whose response depends on the worker and the test alone. -/
def Assembler.ofFunction (respond : Nat → TestCase → Response) : Assembler Unit where
  assemble worker test state := (respond worker test, state)
  release _ state := state

/-- How far a worker is in its chunk. -/
structure Progress where
  worker : Nat
  completed : Nat
  total : Nat
deriving DecidableEq, Repr

inductive Message where
  | progress (progress : Progress)
  | results (worker : Nat) (results : List TestResult)
  | fatal (worker : Nat) (error : PoolError)
deriving DecidableEq, Repr

/-- Something that a worker does. -/
inductive Event where
  | call (worker : Nat) (test : TestCase)
  | release (worker : Nat)
  | send (message : Message)
deriving DecidableEq, Repr

def Event.message? : Event → Option Message
  | .send message => some message
  | _ => none

/-- What a worker did. -/
structure WorkerRun where
  events : List Event
  crashed : Bool
deriving DecidableEq, Repr

/-- The messages that a worker sent, in order. -/
def WorkerRun.messages (run : WorkerRun) : List Message :=
  run.events.filterMap Event.message?

/-- The number of tests between two reports of progress. -/
def progressInterval : Nat := 10

/-- The outcome of a test after the check of its bytes, if that is asked for. -/
def checkedOutcome (check : Bool) (decoder : Decoder) (variant : Variant) : Outcome → Outcome
  | .encoded bytes =>
      if check then
        match variant.encoding.verify bytes (decoder bytes) with
        | .ok _ => .encoded bytes
        | .error mismatch => .mismatched bytes mismatch.message
      else
        .encoded bytes
  | outcome => outcome

/-- The report of progress after a number of tests, if one is due. -/
def progressEvents (worker completed total : Nat) : List Event :=
  if completed % progressInterval = 0 then
    [.send (.progress ⟨worker, completed, total⟩)]
  else
    []

/-- What a worker needs to know. -/
structure WorkerTask (σ : Type) where
  assembler : Assembler σ
  check : Bool
  decoder : Decoder
  worker : Nat
  total : Nat

/-- Run the rest of a chunk, behind the results so far, the last of which comes first. -/
def WorkerTask.run {σ : Type} (task : WorkerTask σ) :
    List TestResult → List TestCase → σ → WorkerRun × σ
  | results, [], state =>
      (⟨[.release task.worker, .send (.results task.worker results.reverse)], false⟩,
        task.assembler.release task.worker state)
  | results, test :: rest, state =>
      match task.assembler.assemble task.worker test state with
      | (.breakdown, state) => (⟨[.call task.worker test], true⟩, state)
      | (.failure error, state) =>
          (⟨[.call task.worker test, .release task.worker, .send (.fatal task.worker error)], false⟩,
            task.assembler.release task.worker state)
      | (.outcome outcome, state) =>
          let checked := checkedOutcome task.check task.decoder test.variant outcome
          let results := ⟨test, checked⟩ :: results
          let (run, state) := task.run results rest state
          (⟨.call task.worker test :: progressEvents task.worker results.length task.total ++ run.events,
            run.crashed⟩, state)

end OpcodeTable
