/-!
# Choices

Choosing one element from each of several lists gives all combinations in lexicographic order: the
choice from the first list changes slowest and the choice from the last list fastest.
-/

namespace OpcodeTable

variable {α : Type}

/-- All ways to choose one element from each list, in lexicographic order. -/
def choices : List (List α) → List (List α)
  | [] => [[]]
  | alternatives :: rest =>
      let tails := choices rest
      alternatives.flatMap fun first => tails.map (first :: ·)

/-- The number of ways to choose one element from each list. -/
def choiceCount (lists : List (List α)) : Nat :=
  (lists.map List.length).foldl (· * ·) 1

/-- A list without repetitions: of equal elements the first is kept. -/
def distinct [DecidableEq α] : List α → List α
  | [] => []
  | element :: rest => element :: (distinct rest).filter (· ≠ element)

end OpcodeTable
