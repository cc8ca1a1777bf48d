/-!
# Plans for a worker pool

The tests are cut into chunks of equal size, one for each worker; the last chunk takes what is left.
-/

namespace OpcodeTable

/-- The quotient rounded up. -/
def ceilDiv (dividend divisor : Nat) : Nat :=
  (dividend + (divisor - 1)) / divisor

/-- The number of workers for a number of tests: one less than the hardware runs at once, no more than
the limit, and no more than are kept busy with the given number of tests each. -/
def workerCount (total hardware : Nat) (limit : Option Nat) (testsPerWorker : Nat) : Nat :=
  if total = 0 then
    0
  else
    let available := max (hardware - 1) 1
    let limited :=
      match limit with
      | none => available
      | some limit => min available (max limit 1)
    max (min limited (ceilDiv total (max testsPerWorker 1))) 1

/-- A range of tests, from the first one up to one before the last. -/
structure Chunk where
  start : Nat
  stop : Nat
deriving DecidableEq, Repr

/-- Cut a number of tests into chunks for a number of workers. -/
def planChunks (total workers : Nat) : List Chunk :=
  if total = 0 ∨ workers = 0 then
    []
  else
    let size := ceilDiv total workers
    (List.range (ceilDiv total size)).map fun index =>
      ⟨index * size, min (index * size + size) total⟩

/-- The elements of a list that lie in a chunk. -/
def Chunk.slice {α : Type} (chunk : Chunk) (elements : List α) : List α :=
  (elements.drop chunk.start).take (chunk.stop - chunk.start)

end OpcodeTable
