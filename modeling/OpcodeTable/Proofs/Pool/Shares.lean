import Mathlib.Algebra.Order.Floor.Div
import Mathlib.Data.List.Range
import OpcodeTable.Proofs.Pool.Plan

/-!
# The shares of the workers

All chunks of a plan but the last have the same size, the number of tests divided by the number of workers
and rounded up; the last one has what is left, which is never nothing. There may be fewer chunks than
workers, never more. The number of workers is the least of its bounds.

The number of tests that a worker should have bounds the number of workers only from the rounded-up
quotient, so a share can be smaller: more than half of that number for all workers but the last, and
whatever is left for the last one.
-/

namespace OpcodeTable

theorem ceilDiv_eq (dividend divisor : Nat) : ceilDiv dividend divisor = dividend ⌈/⌉ divisor := by
  rw [ceilDiv, Nat.ceilDiv_eq_add_pred_div]
  cases divisor with
  | zero => rw [Nat.div_zero, Nat.div_zero]
  | succ divisor => rfl

theorem ceilDiv_le_iff {dividend divisor bound : Nat} (positive : 0 < divisor) :
    ceilDiv dividend divisor ≤ bound ↔ dividend ≤ bound * divisor := by
  rw [← Nat.not_lt, lt_ceilDiv_iff positive, Nat.not_lt]

theorem ceilDiv_le_self {dividend divisor : Nat} (positive : 0 < divisor) :
    ceilDiv dividend divisor ≤ dividend := by
  rw [ceilDiv_le_iff positive]
  exact Nat.le_mul_of_pos_right dividend positive

/-- The number of tests in a chunk. -/
def Chunk.size (chunk : Chunk) : Nat :=
  chunk.stop - chunk.start

/-- The chunks follow one another from zero to the total without gap, none of them empty. They have the
given size, and only the last may be smaller. -/
structure EvenlyCut (chunks : List Chunk) (total size : Nat) : Prop where
  first : chunks.head?.map Chunk.start = some 0
  joined : chunks.IsChain fun chunk next => chunk.stop = next.start
  last : chunks.getLast?.map Chunk.stop = some total
  nonempty : ∀ chunk ∈ chunks, chunk.start < chunk.stop
  full : ∀ chunk ∈ chunks.dropLast, chunk.size = size
  size_le : ∀ chunk ∈ chunks, chunk.size ≤ size

section Plan

variable {total workers : Nat}

theorem length_planChunks (totalPos : 0 < total) (workersPos : 0 < workers) :
    (planChunks total workers).length = ceilDiv total (ceilDiv total workers) := by
  rw [planChunks_eq totalPos workersPos, List.length_map, List.length_range]

theorem length_planChunks_le (totalPos : 0 < total) (workersPos : 0 < workers) :
    (planChunks total workers).length ≤ workers := by
  rw [length_planChunks totalPos workersPos, ceilDiv_le_iff (ceilDiv_pos totalPos workersPos),
    Nat.mul_comm]
  exact le_ceilDiv_mul workersPos

theorem lt_length_planChunks_iff (totalPos : 0 < total) (workersPos : 0 < workers) {worker : Nat} :
    worker < (planChunks total workers).length ↔ worker * ceilDiv total workers < total := by
  rw [length_planChunks totalPos workersPos, lt_ceilDiv_iff (ceilDiv_pos totalPos workersPos)]

theorem mem_planChunks_iff (totalPos : 0 < total) (workersPos : 0 < workers) {chunk : Chunk} :
    chunk ∈ planChunks total workers ↔
      ∃ worker, worker * ceilDiv total workers < total ∧
        chunk = ⟨worker * ceilDiv total workers,
          min (worker * ceilDiv total workers + ceilDiv total workers) total⟩ := by
  simp only [List.mem_iff_getElem?, getElem?_planChunks_eq_some_iff totalPos workersPos]

theorem size_of_mem_dropLast_planChunks (totalPos : 0 < total) (workersPos : 0 < workers) {chunk : Chunk}
    (chunkMem : chunk ∈ (planChunks total workers).dropLast) :
    chunk.size = ceilDiv total workers := by
  obtain ⟨worker, found⟩ := List.mem_iff_getElem?.mp chunkMem
  rw [List.getElem?_dropLast] at found
  split at found
  · rename_i notLast
    -- The next chunk still starts before the end, so nothing is cut off this one.
    have nextStarts : (worker + 1) * ceilDiv total workers < total :=
      (lt_length_planChunks_iff totalPos workersPos).mp (by omega)
    obtain ⟨-, rfl⟩ := (getElem?_planChunks_eq_some_iff totalPos workersPos).mp found
    rw [Nat.add_one_mul] at nextStarts
    simp only [Chunk.size]
    omega
  · cases found

/-- The last chunk takes what the others leave. -/
theorem getLast?_planChunks (totalPos : 0 < total) (workersPos : 0 < workers) :
    (planChunks total workers).getLast? =
      some ⟨((planChunks total workers).length - 1) * ceilDiv total workers, total⟩ := by
  have lengthPos : 0 < (planChunks total workers).length :=
    (lt_length_planChunks_iff totalPos workersPos).mpr (by omega)
  have lastStarts : ((planChunks total workers).length - 1) * ceilDiv total workers < total :=
    (lt_length_planChunks_iff totalPos workersPos).mp (by omega)
  have noneBehind : total ≤ ((planChunks total workers).length - 1 + 1) * ceilDiv total workers := by
    rw [Nat.sub_add_cancel lengthPos, ← Nat.not_lt, ← lt_length_planChunks_iff totalPos workersPos]
    exact Nat.lt_irrefl _
  rw [List.getLast?_eq_getElem?, getElem?_planChunks_eq_some_iff totalPos workersPos]
  refine ⟨lastStarts, ?_⟩
  rw [Nat.add_one_mul] at noneBehind
  rw [Nat.min_eq_right noneBehind]

theorem evenlyCut_planChunks (totalPos : 0 < total) (workersPos : 0 < workers) :
    EvenlyCut (planChunks total workers) total (ceilDiv total workers) where
  first := by
    have starts : 0 * ceilDiv total workers < total := by omega
    rw [List.head?_eq_getElem?,
      (getElem?_planChunks_eq_some_iff totalPos workersPos).mpr ⟨starts, rfl⟩, Option.map_some,
      Nat.zero_mul]
  joined := by
    rw [planChunks_eq totalPos workersPos, List.isChain_map, List.isChain_range]
    intro worker notLast
    have nextStarts : (worker + 1) * ceilDiv total workers < total :=
      (lt_ceilDiv_iff (ceilDiv_pos totalPos workersPos)).mp (by omega)
    rw [Nat.succ_eq_add_one]
    rw [Nat.add_one_mul] at nextStarts ⊢
    exact Nat.min_eq_left (Nat.le_of_lt nextStarts)
  last := by rw [getLast?_planChunks totalPos workersPos, Option.map_some]
  nonempty := by
    intro chunk chunkMem
    obtain ⟨worker, starts, rfl⟩ := (mem_planChunks_iff totalPos workersPos).mp chunkMem
    have sizePos := ceilDiv_pos totalPos workersPos
    exact Nat.lt_min.mpr ⟨Nat.lt_add_of_pos_right sizePos, starts⟩
  full := fun _ => size_of_mem_dropLast_planChunks totalPos workersPos
  size_le := by
    intro chunk chunkMem
    obtain ⟨worker, -, rfl⟩ := (mem_planChunks_iff totalPos workersPos).mp chunkMem
    simp only [Chunk.size]
    omega

theorem start_lt_of_mem_planChunks (totalPos : 0 < total) (workersPos : 0 < workers) {chunk : Chunk}
    (chunkMem : chunk ∈ planChunks total workers) : chunk.start < total := by
  obtain ⟨worker, starts, rfl⟩ := (mem_planChunks_iff totalPos workersPos).mp chunkMem
  exact starts

theorem slice_ne_nil_of_mem_planChunks (workersPos : 0 < workers) {Element : Type} {tests : List Element}
    (lengthEq : tests.length = total) {chunk : Chunk} (chunkMem : chunk ∈ planChunks total workers) :
    chunk.slice tests ≠ [] := by
  have totalPos : 0 < total := by
    rw [Nat.pos_iff_ne_zero]
    rintro rfl
    simp [planChunks] at chunkMem
  have startLt := start_lt_of_mem_planChunks totalPos workersPos chunkMem
  have nonempty := (evenlyCut_planChunks totalPos workersPos).nonempty chunk chunkMem
  rw [← List.length_pos_iff, Chunk.slice, List.length_take, List.length_drop]
  omega

end Plan

section Count

variable {total : Nat}

/-- The upper bounds on the number of workers. -/
def workerBounds (total hardware : Nat) (limit : Option Nat) (testsPerWorker : Nat) : List Nat :=
  [max (hardware - 1) 1] ++ (limit.map (max · 1)).toList ++ [total ⌈/⌉ max testsPerWorker 1]

theorem min?_workerBounds (totalPos : 0 < total) (hardware : Nat) (limit : Option Nat)
    (testsPerWorker : Nat) :
    (workerBounds total hardware limit testsPerWorker).min? =
      some (workerCount total hardware limit testsPerWorker) := by
  have busyPos : 0 < ceilDiv total (max testsPerWorker 1) := ceilDiv_pos totalPos (by omega)
  rw [workerBounds, workerCount, if_neg (by omega), ← ceilDiv_eq]
  cases limit with
  | none =>
      simp only [Option.map_none, Option.toList_none, List.append_nil, List.cons_append, List.nil_append,
        List.min?_cons, List.min?_nil, Option.elim_none, Option.elim_some, Option.some.injEq]
      omega
  | some limit =>
      simp only [Option.map_some, Option.toList_some, List.cons_append, List.nil_append, List.min?_cons,
        List.min?_nil, Option.elim_none, Option.elim_some, Option.some.injEq]
      omega

theorem workerCount_le_ceilDiv (totalPos : 0 < total) (hardware : Nat) (limit : Option Nat)
    (testsPerWorker : Nat) :
    workerCount total hardware limit testsPerWorker ≤ ceilDiv total (max testsPerWorker 1) := by
  have least := min?_workerBounds totalPos hardware limit testsPerWorker
  rw [List.min?_eq_some_iff] at least
  rw [ceilDiv_eq]
  exact least.2 _ (List.mem_append_right _ List.mem_cons_self)

theorem workerCount_le (totalPos : 0 < total) (hardware : Nat) (limit : Option Nat)
    (testsPerWorker : Nat) : workerCount total hardware limit testsPerWorker ≤ total :=
  Nat.le_trans (workerCount_le_ceilDiv totalPos hardware limit testsPerWorker)
    (ceilDiv_le_self (by omega))

end Count

section Share

variable {total hardware testsPerWorker : Nat} {limit : Option Nat}

/-- With the wanted number of tests each, all workers but the last would be kept busy. -/
theorem length_planChunks_sub_one_mul_lt (totalPos : 0 < total) :
    ((planChunks total (workerCount total hardware limit testsPerWorker)).length - 1) * testsPerWorker <
      total := by
  have countPos := workerCount_pos totalPos hardware limit testsPerWorker
  have lengthLe := length_planChunks_le totalPos countPos
  have countLe := workerCount_le_ceilDiv totalPos hardware limit testsPerWorker
  have before : (planChunks total (workerCount total hardware limit testsPerWorker)).length - 1 <
      ceilDiv total (max testsPerWorker 1) := by omega
  rw [lt_ceilDiv_iff (by omega)] at before
  exact Nat.lt_of_le_of_lt (Nat.mul_le_mul_left _ (Nat.le_max_left testsPerWorker 1)) before

/-- Several workers have chunks of more than half the wanted number of tests. -/
theorem lt_two_mul_ceilDiv_workerCount (totalPos : 0 < total)
    (several : 1 < workerCount total hardware limit testsPerWorker) :
    testsPerWorker < 2 * ceilDiv total (workerCount total hardware limit testsPerWorker) := by
  have countLe := workerCount_le_ceilDiv totalPos hardware limit testsPerWorker
  have covers : total ≤ ceilDiv total (workerCount total hardware limit testsPerWorker) *
      workerCount total hardware limit testsPerWorker := le_ceilDiv_mul (by omega)
  have busyLt : (ceilDiv total (max testsPerWorker 1) - 1) * max testsPerWorker 1 < total :=
    (lt_ceilDiv_iff (by omega)).mp (by omega)
  generalize workerCount total hardware limit testsPerWorker = count at *
  generalize ceilDiv total count = size at *
  generalize ceilDiv total (max testsPerWorker 1) = busy at *
  -- There are at most twice as many workers as those that could have the wanted number of tests each.
  have product : (busy - 1) * max testsPerWorker 1 < (busy - 1) * (2 * size) :=
    calc (busy - 1) * max testsPerWorker 1
      _ < total := busyLt
      _ ≤ size * count := covers
      _ ≤ size * (2 * (busy - 1)) := Nat.mul_le_mul_left size (by omega)
      _ = (busy - 1) * (2 * size) := by ac_rfl
  exact Nat.lt_of_le_of_lt (Nat.le_max_left testsPerWorker 1) (Nat.lt_of_mul_lt_mul_left product)

end Share

/-- How tests are cut into chunks and how many workers there are for them. -/
theorem planChunks_workerCount_exact {total : Nat} (totalPos : 0 < total) :
    (∀ workers, 0 < workers → total < 2 ^ 63 →
      EvenlyCut (planChunks total workers) total (total ⌈/⌉ workers) ∧
      (planChunks total workers).length = total ⌈/⌉ (total ⌈/⌉ workers) ∧
      (planChunks total workers).length ≤ workers ∧
      ∀ chunk ∈ planChunks total workers, chunk.start + total ⌈/⌉ workers ≤ 2 ^ 64 - 1) ∧
    ∀ hardware limit testsPerWorker,
      (workerBounds total hardware limit testsPerWorker).min? =
        some (workerCount total hardware limit testsPerWorker) ∧
      1 ≤ workerCount total hardware limit testsPerWorker ∧
      workerCount total hardware limit testsPerWorker ≤ total ∧
      ∀ (Element : Type) (tests : List Element), tests.length = total →
        ∀ chunk ∈ planChunks total (workerCount total hardware limit testsPerWorker),
          chunk.slice tests ≠ [] := by
  constructor
  · intro workers workersPos small
    rw [← ceilDiv_eq, ← ceilDiv_eq]
    refine ⟨evenlyCut_planChunks totalPos workersPos, length_planChunks totalPos workersPos,
      length_planChunks_le totalPos workersPos, ?_⟩
    intro chunk chunkMem
    have startLt := start_lt_of_mem_planChunks totalPos workersPos chunkMem
    have sizeLe : ceilDiv total workers ≤ total := ceilDiv_le_self workersPos
    omega
  · intro hardware limit testsPerWorker
    have countPos := workerCount_pos totalPos hardware limit testsPerWorker
    refine ⟨min?_workerBounds totalPos hardware limit testsPerWorker, countPos,
      workerCount_le totalPos hardware limit testsPerWorker, ?_⟩
    intro Element tests lengthEq chunk chunkMem
    exact slice_ne_nil_of_mem_planChunks countPos lengthEq chunkMem

/-- Ten tests make three chunks for three workers, the last of them smaller. -/
theorem planChunks_workerCount_exact_ten :
    0 < 10 ∧ 0 < 3 ∧ 10 < 2 ^ 63 ∧ planChunks 10 3 = [⟨0, 4⟩, ⟨4, 8⟩, ⟨8, 10⟩] ∧
      (EvenlyCut (planChunks 10 3) 10 4 ∧ (planChunks 10 3).length = 3 ∧
        (planChunks 10 3).length ≤ 3 ∧ ∀ chunk ∈ planChunks 10 3, chunk.start + 4 ≤ 2 ^ 64 - 1) ∧
      (workerBounds 10 8 (some 3) 4).min? = some (workerCount 10 8 (some 3) 4) ∧
      ∀ chunk ∈ planChunks 10 (workerCount 10 8 (some 3) 4), chunk.slice (List.range 10) ≠ [] := by
  obtain ⟨planned, counted⟩ := planChunks_workerCount_exact (show 0 < 10 by decide)
  have bounded := counted 8 (some 3) 4
  exact ⟨by decide, by decide, by decide, by decide, planned 3 (by decide) (by decide), bounded.1,
    bounded.2.2.2 Nat (List.range 10) List.length_range⟩

/-- What is left of the wanted number of tests where several workers share the tests: it bounds the number
of workers, all but the last have more than half of it, and all have it exactly if the last has. -/
theorem planChunks_share_bounds {total hardware testsPerWorker : Nat} {limit : Option Nat}
    (several : 1 < (planChunks total (workerCount total hardware limit testsPerWorker)).length) :
    ((planChunks total (workerCount total hardware limit testsPerWorker)).length - 1) * testsPerWorker <
        total ∧
      (∀ chunk ∈ (planChunks total (workerCount total hardware limit testsPerWorker)).dropLast,
        testsPerWorker < 2 * chunk.size) ∧
      ((∀ chunk ∈ planChunks total (workerCount total hardware limit testsPerWorker),
          testsPerWorker ≤ chunk.size) ↔
        testsPerWorker ≤
          total - ((planChunks total (workerCount total hardware limit testsPerWorker)).length - 1) *
            (total ⌈/⌉ workerCount total hardware limit testsPerWorker)) := by
  have totalPos : 0 < total := by
    rw [Nat.pos_iff_ne_zero]
    rintro rfl
    simp [planChunks] at several
  have countPos := workerCount_pos totalPos hardware limit testsPerWorker
  have severalWorkers := Nat.lt_of_lt_of_le several (length_planChunks_le totalPos countPos)
  have cut := evenlyCut_planChunks totalPos countPos
  have lastEq := getLast?_planChunks totalPos countPos
  have lastMem := List.mem_of_getLast? lastEq
  refine ⟨length_planChunks_sub_one_mul_lt totalPos, ?_, ?_⟩
  · intro chunk chunkMem
    rw [cut.full chunk chunkMem]
    exact lt_two_mul_ceilDiv_workerCount totalPos severalWorkers
  · rw [← ceilDiv_eq]
    constructor
    · intro enough
      exact enough _ lastMem
    · intro lastEnough chunk chunkMem
      -- The last chunk is the smallest one.
      obtain ⟨others, split⟩ := List.getLast?_eq_some_iff.mp lastEq
      rw [split, List.mem_append, List.mem_singleton] at chunkMem
      rcases chunkMem with earlier | rfl
      · have full := cut.full chunk (by rwa [split, List.dropLast_concat])
        have lastLe := cut.size_le _ lastMem
        rw [full]
        exact Nat.le_trans lastEnough lastLe
      · exact lastEnough

/-- Seven tests, four wanted for each worker: a chunk of four and one of three. -/
theorem planChunks_share_bounds_seven :
    1 < (planChunks 7 (workerCount 7 8 none 4)).length ∧
      ((planChunks 7 (workerCount 7 8 none 4)).length - 1) * 4 < 7 ∧
      (∀ chunk ∈ (planChunks 7 (workerCount 7 8 none 4)).dropLast, 4 < 2 * chunk.size) ∧
      ((∀ chunk ∈ planChunks 7 (workerCount 7 8 none 4), 4 ≤ chunk.size) ↔
        4 ≤ 7 - ((planChunks 7 (workerCount 7 8 none 4)).length - 1) *
          (7 ⌈/⌉ workerCount 7 8 none 4)) :=
  ⟨by decide, planChunks_share_bounds (by decide)⟩

/-- Several workers can have fewer tests than wanted: the last of two, all of three, and the last of three
although there are enough tests for three. -/
theorem planChunks_short_shares :
    (planChunks 7 (workerCount 7 8 none 4)).map Chunk.size = [4, 3] ∧
      (planChunks 9 (workerCount 9 8 none 4)).map Chunk.size = [3, 3, 3] ∧
      (planChunks 10 (workerCount 10 8 (some 3) 3)).map Chunk.size = [4, 4, 2] ∧
      ¬∀ total hardware limit testsPerWorker,
        1 < (planChunks total (workerCount total hardware limit testsPerWorker)).length →
          ∀ chunk ∈ planChunks total (workerCount total hardware limit testsPerWorker),
            testsPerWorker ≤ chunk.size := by
  refine ⟨by decide, by decide, by decide, ?_⟩
  intro promised
  have enough : 4 ≤ Chunk.size ⟨4, 7⟩ := promised 7 8 none 4 (by decide) ⟨4, 7⟩ (by decide)
  exact absurd enough (by decide)

end OpcodeTable
