import Mathlib.Data.List.Forall2
import OpcodeTable.Proofs.Pool.Replay

/-!
# Every worker that is started is released once

A worker releases what it holds when it is through with its tests and when the assembler fails. If it
breaks down the coordinator does so for it, after all workers have stopped. In whatever order the workers
do their work, each one that was started is therefore released once, behind all tests that it had
assembled.

Nothing is assumed about the responses of the assembler. Those that one worker gets may depend on what
the others have done by then.
-/

namespace OpcodeTable

namespace Interleaving

variable {Element : Type} {sequences : List (List Element)} {merged : List Element}

/-- A merge keeps the order of elements that all come from one sequence. -/
theorem filter_eq (interleaving : Interleaving sequences merged) {keep : Element → Bool} {origin : Nat}
    (others : ∀ index sequence, sequences[index]? = some sequence → index ≠ origin →
      sequence.filter keep = []) :
    merged.filter keep = (sequences[origin]?.getD []).filter keep := by
  induction interleaving with
  | @done sequences exhausted =>
      cases found : sequences[origin]? with
      | none => rfl
      | some sequence =>
          have empty := exhausted sequence (List.mem_of_getElem? found)
          simp [empty]
  | @take sequences position first rest merged next later ih =>
      have inside : position < sequences.length := (List.getElem?_eq_some_iff.mp next).1
      have othersLater : ∀ index sequence, (sequences.set position rest)[index]? = some sequence →
          index ≠ origin → sequence.filter keep = [] := by
        intro index sequence found elsewhere
        by_cases same : index = position
        · subst same
          have dropped := others index _ next elsewhere
          obtain rfl : rest = sequence := by
            simpa [inside] using found
          exact (List.filter_eq_nil_iff.mpr fun element member =>
            List.filter_eq_nil_iff.mp dropped element (List.mem_cons_of_mem first member))
        · rw [List.getElem?_set_ne (Ne.symm same)] at found
          exact others index sequence found elsewhere
      have kept := ih othersLater
      by_cases same : position = origin
      · subst same
        rw [List.getElem?_set_self inside] at kept
        simp only [next, Option.getD_some, List.filter_cons] at kept ⊢
        rw [kept]
      · have dropped := others position _ next same
        have notKept : ¬ keep first := List.filter_eq_nil_iff.mp dropped first List.mem_cons_self
        rw [List.getElem?_set_ne same] at kept
        rw [List.filter_cons_of_neg notKept, kept]

private theorem flatten_behind {exhausted : List (List Element)}
    (allEmpty : ∀ sequence ∈ exhausted, sequence = []) (sequences : List (List Element)) :
    Interleaving (exhausted ++ sequences) sequences.flatten := by
  induction sequences generalizing exhausted with
  | nil => exact .done (by simpa using allEmpty)
  | cons sequence rest ih =>
      induction sequence with
      | nil =>
          have stillEmpty : ∀ sequence ∈ exhausted ++ [[]], sequence = [] := by
            intro sequence member
            rcases List.mem_append.mp member with early | last
            · exact allEmpty sequence early
            · exact List.mem_singleton.mp last
          simpa using ih stillEmpty
      | cons first sequence later =>
          have next : (exhausted ++ (first :: sequence) :: rest)[exhausted.length]? =
              some (first :: sequence) := by simp
          apply take next
          simpa using later

/-- One merge puts the sequences one behind the other. -/
theorem flatten (sequences : List (List Element)) : Interleaving sequences sequences.flatten := by
  have allEmpty : ∀ sequence ∈ ([] : List (List Element)), sequence = [] := by simp
  exact flatten_behind allEmpty sequences

end Interleaving

/-- The event is about what a worker holds: it has a test assembled, or it is released. -/
def Event.concerns (worker : Nat) : Event → Bool
  | .call number _ => worker == number
  | .release number => worker == number
  | .send _ => false

/-- The worker has tests assembled and is then released, unless it breaks down. What other workers hold
is left alone. -/
structure WorkerRun.Belongs (run : WorkerRun) (worker : Nat) : Prop where
  own : ∃ tests : List TestCase, run.events.filter (Event.concerns worker) =
    tests.map (Event.call worker) ++ if run.crashed then [] else [.release worker]
  foreign : ∀ number, number ≠ worker → run.events.filter (Event.concerns number) = []

theorem filter_concerns_progressEvents (number worker completed total : Nat) :
    (progressEvents worker completed total).filter (Event.concerns number) = [] := by
  rw [progressEvents]
  split <;> rfl

theorem WorkerTask.run_belongs {σ : Type} (task : WorkerTask σ) (results : List TestResult)
    (tests : List TestCase) (state : σ) : (task.run results tests state).1.Belongs task.worker := by
  induction tests generalizing results state with
  | nil =>
      refine ⟨⟨[], by simp [run, Event.concerns]⟩, fun number foreign => ?_⟩
      simp [run, Event.concerns, foreign]
  | cons test rest ih =>
      obtain ⟨next, -, ran⟩ | ⟨error, next, -, ran⟩ | ⟨outcome, next, later, final, -, ranLater, ran⟩ :=
        task.run_cons_cases results test rest state
      · rw [ran]
        refine ⟨⟨[test], by simp [Event.concerns]⟩, fun number foreign => ?_⟩
        simp [Event.concerns, foreign]
      · rw [ran]
        refine ⟨⟨[test], by simp [Event.concerns]⟩, fun number foreign => ?_⟩
        simp [Event.concerns, foreign]
      · -- A report of progress concerns nobody, so the call comes right before what the rest leaves.
        have belongs := ih (task.result test outcome :: results) next
        rw [ranLater] at belongs
        obtain ⟨called, own⟩ := belongs.own
        rw [ran]
        refine ⟨⟨test :: called, ?_⟩, fun number foreign => ?_⟩
        · simp [Event.concerns, filter_concerns_progressEvents, own]
        · simp [Event.concerns, filter_concerns_progressEvents, belongs.foreign number foreign, foreign]

namespace Pool

variable {σ : Type} {pool : Pool σ} {tests : List TestCase} {state : σ}

/-- The worker is started: it has a chunk, and neither it nor a worker before it fails to start. -/
def Starts (pool : Pool σ) (tests : List TestCase) (worker : Nat) : Prop :=
  worker < pool.workers tests ∧
    ∀ failing reason, pool.spawnFailure = some (failing, reason) → worker < failing

/-- What a worker can do with its tests. The responses that it gets may depend on what other workers do
meanwhile, so they may be those of any assembler. -/
def CanDo (pool : Pool σ) (worker : Nat) (slice : List TestCase) (run : WorkerRun) : Prop :=
  ∃ (τ : Type) (assembler : Assembler τ) (state : τ),
    run = ((WorkerTask.mk assembler pool.options.decodeCheck pool.decoder worker slice.length).run []
      slice state).1

/-- Events in an order in which they can happen: each worker that is started keeps its order, and the
coordinator releases what broken workers hold after all workers have stopped. -/
def Happens (pool : Pool σ) (tests : List TestCase) (events : List Event) : Prop :=
  ∃ runs merged,
    List.Forall₂ (fun numbered run => pool.CanDo numbered.2 (numbered.1.slice tests) run)
      (pool.spawnedChunks tests.length).zipIdx runs ∧
    Interleaving (runs.map WorkerRun.events) merged ∧
    events = merged ++ (crashedWorkers runs).map Event.release

theorem canDo_runWorkers (start : Nat) (chunks : List Chunk) (state : σ) :
    List.Forall₂ (fun numbered run => pool.CanDo numbered.2 (numbered.1.slice tests) run)
      (chunks.zipIdx start) (pool.runWorkers tests start chunks state).1 := by
  induction chunks generalizing start state with
  | nil => exact .nil
  | cons chunk rest ih =>
      have own : pool.CanDo start (chunk.slice tests)
          ((pool.task start (chunk.slice tests).length).run [] (chunk.slice tests) state).1 :=
        ⟨σ, pool.assembler, state, rfl⟩
      exact .cons own (ih (start + 1) _)

theorem run_happens (pool : Pool σ) (tests : List TestCase) (state : σ) :
    pool.Happens tests (pool.run tests state).events := by
  refine ⟨pool.runs tests state, _, canDo_runWorkers 0 _ state, Interleaving.flatten _, ?_⟩
  rw [← List.flatMap_def]
  rfl

theorem belongs_of_canDo {start index : Nat} {chunks : List Chunk} {runs : List WorkerRun}
    {run : WorkerRun}
    (done : List.Forall₂ (fun numbered run => pool.CanDo numbered.2 (numbered.1.slice tests) run)
      (chunks.zipIdx start) runs)
    (found : runs[index]? = some run) : run.Belongs (start + index) := by
  induction chunks generalizing start index runs with
  | nil =>
      cases done
      simp at found
  | cons chunk rest ih =>
      rw [List.zipIdx_cons] at done
      cases done with
      | cons own others =>
          cases index with
          | zero =>
              obtain ⟨τ, assembler, state, rfl⟩ := own
              obtain rfl := Option.some.inj found
              exact WorkerTask.run_belongs _ [] (chunk.slice tests) state
          | succ index =>
              have later := ih others found
              rwa [Nat.add_assoc, Nat.add_comm 1] at later

theorem starts_iff {worker : Nat} :
    pool.Starts tests worker ↔ worker < (pool.spawnedChunks tests.length).length := by
  rw [spawnedChunks, Starts, workers]
  cases pool.spawnFailure with
  | none => simp
  | some failure =>
      obtain ⟨failing, reason⟩ := failure
      have bounded : worker < failing ∧ worker < (pool.chunks tests.length).length ↔
          worker < min failing (pool.chunks tests.length).length := Nat.lt_min.symm
      simp [← bounded, and_comm]

theorem nodup_crashedWorkers (runs : List WorkerRun) : (crashedWorkers runs).Nodup := by
  have numbered : runs.zipIdx.Pairwise fun first second => first.2 ≠ second.2 := by
    apply List.pairwise_map.mp
    rw [List.zipIdx_map_snd]
    exact List.nodup_range'
  apply List.pairwise_filterMap.mpr
  refine numbered.imp fun distinct worker isFirst other isSecond => ?_
  have first := (Option.ite_none_right_eq_some.mp isFirst).2
  have second := (Option.ite_none_right_eq_some.mp isSecond).2
  simpa [← Option.some.inj first, ← Option.some.inj second] using distinct

/-- The coordinator releases what a broken worker holds, once, and nothing else. -/
theorem filter_releases (runs : List WorkerRun) (worker : Nat) :
    ((crashedWorkers runs).map Event.release).filter (Event.concerns worker) =
      if worker ∈ crashedWorkers runs then [.release worker] else [] := by
  have own : (crashedWorkers runs).filter (Event.concerns worker ∘ Event.release) =
      List.replicate ((crashedWorkers runs).count worker) worker := by
    rw [← List.filter_beq]
    refine List.filter_congr fun number _ => ?_
    simp [Event.concerns, eq_comm]
  rw [List.filter_map, own, (nodup_crashedWorkers runs).count]
  split <;> rfl

/-- The events about one worker are those of its own run, and the coordinator's if it broke down. -/
theorem filter_merged {runs : List WorkerRun} {merged : List Event}
    (belongs : ∀ (worker : Nat) (run : WorkerRun), runs[worker]? = some run → run.Belongs worker)
    (interleaving : Interleaving (runs.map WorkerRun.events) merged) (worker : Nat) :
    (merged ++ (crashedWorkers runs).map Event.release).filter (Event.concerns worker) =
      ((runs.map WorkerRun.events)[worker]?.getD []).filter (Event.concerns worker) ++
        if worker ∈ crashedWorkers runs then [.release worker] else [] := by
  have others : ∀ index sequence, (runs.map WorkerRun.events)[index]? = some sequence →
      index ≠ worker → sequence.filter (Event.concerns worker) = [] := by
    intro index sequence found foreign
    rw [List.getElem?_map, Option.map_eq_some_iff] at found
    obtain ⟨run, found, rfl⟩ := found
    exact (belongs index run found).foreign worker foreign.symm
  rw [List.filter_append, interleaving.filter_eq others, filter_releases]

/-- All events about a worker that is started are the tests that it has assembled, and then one release.
There are none about other workers. -/
theorem Happens.filter_eq {events : List Event} (happens : pool.Happens tests events) (worker : Nat) :
    (pool.Starts tests worker ∧ ∃ called : List TestCase, events.filter (Event.concerns worker) =
      called.map (Event.call worker) ++ [.release worker]) ∨
    (¬ pool.Starts tests worker ∧ events.filter (Event.concerns worker) = []) := by
  obtain ⟨runs, merged, done, interleaving, rfl⟩ := happens
  have belongs : ∀ (worker : Nat) (run : WorkerRun), runs[worker]? = some run → run.Belongs worker := by
    intro worker run found
    have counted := belongs_of_canDo done found
    rwa [Nat.zero_add] at counted
  have started : pool.Starts tests worker ↔ worker < runs.length := by
    rw [starts_iff, ← done.length_eq, List.length_zipIdx]
  rw [filter_merged belongs interleaving, List.getElem?_map]
  cases found : runs[worker]? with
  | some run =>
      left
      refine ⟨started.mpr (List.getElem?_eq_some_iff.mp found).1, ?_⟩
      obtain ⟨called, own⟩ := (belongs worker run found).own
      have broken : worker ∈ crashedWorkers runs ↔ run.crashed := by
        simp [mem_crashedWorkers_iff, found]
      refine ⟨called, ?_⟩
      rw [Option.map_some, Option.getD_some, own]
      cases crashed : run.crashed <;> simp [broken, crashed]
  | none =>
      right
      have outside : runs.length ≤ worker := List.getElem?_eq_none_iff.mp found
      have unbroken : worker ∉ crashedWorkers runs := by
        simp [mem_crashedWorkers_iff, found]
      refine ⟨fun starts => Nat.not_lt.mpr outside (started.mp starts), ?_⟩
      rw [if_neg unbroken]
      rfl

theorem Happens.starts_of_concerns {events : List Event} (happens : pool.Happens tests events)
    {event : Event} {worker : Nat} (member : event ∈ events) (concerns : event.concerns worker = true) :
    pool.Starts tests worker := by
  rcases happens.filter_eq worker with ⟨starts, -⟩ | ⟨-, nothing⟩
  · exact starts
  · have kept : event ∈ events.filter (Event.concerns worker) :=
      List.mem_filter.mpr ⟨member, concerns⟩
    rw [nothing] at kept
    cases kept

theorem Happens.starts_of_release {events : List Event} (happens : pool.Happens tests events)
    {worker : Nat} (released : .release worker ∈ events) : pool.Starts tests worker :=
  happens.starts_of_concerns released (beq_self_eq_true worker)

theorem Happens.filter_of_starts {events : List Event} (happens : pool.Happens tests events)
    {worker : Nat} (starts : pool.Starts tests worker) :
    ∃ called : List TestCase, events.filter (Event.concerns worker) =
      called.map (Event.call worker) ++ [.release worker] := by
  rcases happens.filter_eq worker with ⟨-, filtered⟩ | ⟨absent, -⟩
  · exact filtered
  · exact absurd starts absent

theorem Happens.count_release {events : List Event} (happens : pool.Happens tests events)
    {worker : Nat} (starts : pool.Starts tests worker) : events.count (.release worker) = 1 := by
  obtain ⟨called, filtered⟩ := happens.filter_of_starts starts
  have isKept : Event.concerns worker (.release worker) := beq_self_eq_true worker
  have noCall : (called.map (Event.call worker)).count (.release worker) = 0 := by
    simp [List.count_eq_zero]
  rw [← List.count_filter isKept, filtered, List.count_append, noCall]
  simp

private theorem eq_nil_of_append_release {before after : List Event} {called : List TestCase}
    {worker : Nat}
    (same : before ++ .release worker :: after = called.map (Event.call worker) ++ [.release worker]) :
    after = [] := by
  rcases List.append_eq_append_iff.mp same with ⟨middle, calls, tail⟩ | ⟨middle, -, tail⟩
  · cases middle with
    | nil => exact (List.cons.inj tail).2
    | cons first middle =>
        -- The release would stand among the calls.
        obtain rfl := (List.cons.inj tail).1
        have among : Event.release worker ∈ called.map (Event.call worker) := by simp [calls]
        simp at among
  · have lengths := congrArg List.length tail
    simp only [List.length_cons, List.length_nil, List.length_append] at lengths
    have noneAfter : after.length = 0 := by omega
    exact List.length_eq_zero_iff.mp noneAfter

theorem Happens.not_mem_call_after {before after : List Event} {worker : Nat}
    (happens : pool.Happens tests (before ++ .release worker :: after)) (test : TestCase) :
    .call worker test ∉ after := by
  intro member
  have starts := happens.starts_of_release (List.mem_append_right before List.mem_cons_self)
  obtain ⟨called, filtered⟩ := happens.filter_of_starts starts
  have isKept : Event.concerns worker (.release worker) := beq_self_eq_true worker
  rw [List.filter_append, List.filter_cons_of_pos isKept] at filtered
  have kept : Event.call worker test ∈ after.filter (Event.concerns worker) :=
    List.mem_filter.mpr ⟨member, beq_self_eq_true worker⟩
  rw [eq_nil_of_append_release filtered] at kept
  exact List.not_mem_nil kept

/-- The error of a worker that cannot be started wins over all that is received. -/
theorem result_of_spawnFailure {failing : Nat} {reason : String}
    (failure : pool.spawnFailure = some (failing, reason)) (isWorker : failing < pool.workers tests) :
    (pool.run tests state).result = .error (.spawn failing reason) := by
  have spawnError : pool.spawnError? tests.length = some (.spawn failing reason) := by
    rw [spawnError?, failure]
    exact if_pos isWorker
  rw [run, spawnError]
  simp only [Collection.conclude, Collection.fatal_foldl_receive, Option.some_or]

/-- The events of a run are what its assembler goes through. In every order in which the events of the
pool can happen, a worker is released once if it was started and never otherwise, and after its release it
has no test assembled. If a worker cannot be started the run fails with that error, whatever the workers
before it report. -/
theorem run_releases (pool : Pool σ) (tests : List TestCase) (state : σ) :
    (pool.run tests state).events.foldl pool.assembler.undergo state = (pool.run tests state).state ∧
    pool.Happens tests (pool.run tests state).events ∧
    (∀ events, pool.Happens tests events → ∀ worker,
      (pool.Starts tests worker → events.count (.release worker) = 1) ∧
      (¬ pool.Starts tests worker → .release worker ∉ events) ∧
      ∀ before after, events = before ++ .release worker :: after →
        ∀ test, .call worker test ∉ after) ∧
    ∀ failing reason, pool.spawnFailure = some (failing, reason) → failing < pool.workers tests →
      (pool.run tests state).result = .error (.spawn failing reason) := by
  refine ⟨undergo_run pool tests state, run_happens pool tests state, ?_, ?_⟩
  · intro events happens worker
    refine ⟨happens.count_release, fun absent released => ?_, ?_⟩
    · exact absent (happens.starts_of_release released)
    · rintro before after rfl test
      exact happens.not_mem_call_after test
  · intro failing reason failure isWorker
    exact result_of_spawnFailure failure isWorker

end Pool

end OpcodeTable
