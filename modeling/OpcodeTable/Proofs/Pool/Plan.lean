import Mathlib.Data.Nat.Basic
import OpcodeTable.Pool.Plan

/-!
# Chunks cover all tests

The chunks of a plan follow one another without gap. The tests of all chunks, each handled with the
number of its chunk, are all tests in their order, and the chunk of a test is the one whose number is the
position of the test divided by the size of the chunks.
-/

namespace OpcodeTable

theorem lt_ceilDiv_iff {index dividend divisor : Nat} (positive : 0 < divisor) :
    index < ceilDiv dividend divisor ↔ index * divisor < dividend := by
  rw [ceilDiv, Nat.lt_iff_add_one_le, Nat.le_div_iff_mul_le positive, Nat.add_one_mul]
  omega

theorem ceilDiv_pos {dividend divisor : Nat} (dividendPos : 0 < dividend)
    (divisorPos : 0 < divisor) : 0 < ceilDiv dividend divisor := by
  rw [lt_ceilDiv_iff divisorPos]
  omega

theorem le_ceilDiv_mul {dividend divisor : Nat} (positive : 0 < divisor) :
    dividend ≤ ceilDiv dividend divisor * divisor := by
  rw [← Nat.not_lt, ← lt_ceilDiv_iff positive]
  exact Nat.lt_irrefl _

theorem workerCount_pos {total : Nat} (positive : 0 < total) (hardware : Nat) (limit : Option Nat)
    (testsPerWorker : Nat) : 0 < workerCount total hardware limit testsPerWorker := by
  rw [workerCount, if_neg (by omega)]
  exact Nat.lt_of_lt_of_le Nat.one_pos (Nat.le_max_right _ _)

/-- A chunk holds a position if the position lies between its bounds. -/
def Chunk.Contains (chunk : Chunk) (position : Nat) : Prop :=
  chunk.start ≤ position ∧ position < chunk.stop

theorem zipIdx_range (count : Nat) :
    (List.range count).zipIdx = (List.range count).map fun index => (index, index) :=
  List.ext_getElem (by simp) fun _ _ _ => by simp

section

variable {total workers : Nat}

theorem planChunks_eq (totalPos : 0 < total) (workersPos : 0 < workers) :
    planChunks total workers =
      (List.range (ceilDiv total (ceilDiv total workers))).map fun index =>
        ⟨index * ceilDiv total workers,
          min (index * ceilDiv total workers + ceilDiv total workers) total⟩ := by
  rw [planChunks, if_neg (by omega)]

theorem getElem?_planChunks_eq_some_iff (totalPos : 0 < total) (workersPos : 0 < workers)
    {worker : Nat} {chunk : Chunk} :
    (planChunks total workers)[worker]? = some chunk ↔
      worker * ceilDiv total workers < total ∧
        chunk = ⟨worker * ceilDiv total workers,
          min (worker * ceilDiv total workers + ceilDiv total workers) total⟩ := by
  have sizePos : 0 < ceilDiv total workers := ceilDiv_pos totalPos workersPos
  rw [planChunks_eq totalPos workersPos, List.getElem?_map, ← lt_ceilDiv_iff sizePos]
  by_cases inside : worker < ceilDiv total (ceilDiv total workers)
  · rw [List.getElem?_range inside]
    simp [inside, eq_comm]
  · rw [List.getElem?_eq_none (by simpa using inside)]
    simp [inside]

/-- The number of the chunk that holds a position is the quotient by the size of the chunks. -/
theorem planChunks_contains_iff (workersPos : 0 < workers) {worker position : Nat}
    (inside : position < total) :
    (∃ chunk, (planChunks total workers)[worker]? = some chunk ∧ chunk.Contains position) ↔
      worker = position / ceilDiv total workers := by
  have sizePos : 0 < ceilDiv total workers := ceilDiv_pos (by omega) workersPos
  simp only [getElem?_planChunks_eq_some_iff (show 0 < total by omega) workersPos, Chunk.Contains]
  constructor
  · rintro ⟨chunk, ⟨-, rfl⟩, low, high⟩
    have below : position < (worker + 1) * ceilDiv total workers := by
      rw [Nat.add_one_mul]
      exact Nat.lt_of_lt_of_le high (Nat.min_le_left _ _)
    exact (Nat.div_eq_of_lt_le low below).symm
  · rintro rfl
    have low := Nat.div_mul_le_self position (ceilDiv total workers)
    have high := Nat.lt_div_mul_add (a := position) sizePos
    exact ⟨_, ⟨by omega, rfl⟩, low, Nat.lt_min.mpr ⟨high, inside⟩⟩

end

section

variable {Element Value : Type}

private theorem map_slices_range (elements : List Element) (handle : Nat → Element → Value) {size : Nat}
    (positive : 0 < size) (count : Nat) :
    ((List.range count).flatMap fun index =>
        ((elements.drop (index * size)).take size).map (handle index)) =
      (elements.take (count * size)).mapIdx fun position => handle (position / size) := by
  induction count with
  | zero => simp
  | succ count ih =>
      -- The last slice lies behind the others, unless they use up the list.
      rw [List.range_succ, List.flatMap_append, ih, Nat.add_one_mul, List.take_add,
        List.mapIdx_append, List.flatMap_singleton]
      congr 1
      by_cases enough : count * size ≤ elements.length
      · refine List.ext_getElem (by simp) fun position inside _ => ?_
        have small : position < size := by
          simp only [List.length_map, List.length_take] at inside
          omega
        have quotient : (position + count * size) / size = count := by
          rw [Nat.add_mul_div_right _ _ positive, Nat.div_eq_of_lt small, Nat.zero_add]
        simp [Nat.min_eq_left enough, quotient]
      · rw [List.drop_eq_nil_of_le (by omega)]
        simp

private theorem slice_planned (elements : List Element) (start size : Nat) :
    Chunk.slice ⟨start, min (start + size) elements.length⟩ elements =
      (elements.drop start).take size := by
  simp only [Chunk.slice, List.take_eq_take_iff, List.length_drop]
  omega

/-- Handling each chunk's elements with the number of the chunk handles every element once, in order,
with the quotient of its position by the size of the chunks. -/
theorem flatMap_slice_planChunks (elements : List Element) (handle : Nat → Element → Value)
    {workers : Nat} (workersPos : 0 < elements.length → 0 < workers) :
    ((planChunks elements.length workers).zipIdx.flatMap fun (chunk, worker) =>
        (chunk.slice elements).map (handle worker)) =
      elements.mapIdx fun position => handle (position / ceilDiv elements.length workers) := by
  rcases Nat.eq_zero_or_pos elements.length with none | totalPos
  · rw [List.length_eq_zero_iff.mp none]
    simp [planChunks]
  have sizePos : 0 < ceilDiv elements.length workers := ceilDiv_pos totalPos (workersPos totalPos)
  rw [planChunks_eq totalPos (workersPos totalPos), List.zipIdx_map, zipIdx_range, List.map_map,
    List.flatMap_map]
  simp only [Function.comp_apply, Prod.map_apply, id_eq, slice_planned]
  rw [map_slices_range elements handle sizePos, List.take_of_length_le (le_ceilDiv_mul sizePos)]

end

end OpcodeTable
