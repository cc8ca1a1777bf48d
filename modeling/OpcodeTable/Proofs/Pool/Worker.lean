import OpcodeTable.Pool.Worker

/-!
# What a worker does with its tests

A worker has its tests assembled in order, up to and including the first one that fails. Besides reports
of progress it sends one message: all its results if no test fails, and the error if the assembler could
not be used. A worker that breaks down sends none.
-/

namespace OpcodeTable

/-- The assembler ran. -/
def Response.isOutcome : Response → Bool
  | .outcome _ => true
  | _ => false

/-- The response to a worker's test does not depend on the state of the surroundings. -/
def Assembler.Responds {σ : Type} (assembler : Assembler σ) (respond : Nat → TestCase → Response) :
    Prop :=
  ∀ worker test state, (assembler.assemble worker test state).1 = respond worker test

theorem Assembler.ofFunction_responds (respond : Nat → TestCase → Response) :
    (Assembler.ofFunction respond).Responds respond :=
  fun _ _ _ => rfl

/-- The test that a worker has assembled by an event. -/
def Event.call? : Event → Option (Nat × TestCase)
  | .call worker test => some (worker, test)
  | _ => none

/-- The message only reports progress. -/
def Message.isProgress : Message → Bool
  | .progress _ => true
  | _ => false

/-- The messages that tell how workers ended. -/
def reports (messages : List Message) : List Message :=
  messages.filter fun message => !message.isProgress

theorem mem_reports_iff {message : Message} {messages : List Message} :
    message ∈ reports messages ↔ message ∈ messages ∧ message.isProgress = false := by
  simp [reports]

theorem reports_append (before after : List Message) :
    reports (before ++ after) = reports before ++ reports after :=
  List.filter_append ..

section

variable (respond : TestCase → Response)

/-- The first test that fails. -/
def firstFault? (tests : List TestCase) : Option TestCase :=
  tests.find? fun test => !(respond test).isOutcome

/-- The tests before the first one that fails, and that one. -/
def attempted (tests : List TestCase) : List TestCase :=
  tests.takeWhile (fun test => (respond test).isOutcome) ++ (firstFault? respond tests).toList

/-- The result of a test whose response is an outcome. -/
def testResult? (check : Bool) (decoder : Decoder) (test : TestCase) : Option TestResult :=
  match respond test with
  | .outcome outcome => some ⟨test, checkedOutcome check decoder test.variant outcome⟩
  | _ => none

/-- The message that tells how a worker ended, given its results. -/
def finalMessage? (worker : Nat) (tests : List TestCase) (results : List TestResult) :
    Option Message :=
  match (firstFault? respond tests).map respond with
  | none => some (.results worker results)
  | some (.failure error) => some (.fatal worker error)
  | some _ => none

theorem isOutcome_of_firstFault?_eq_some {tests : List TestCase} {test : TestCase}
    (fault : firstFault? respond tests = some test) : (respond test).isOutcome = false := by
  simpa using List.find?_some fault

theorem mem_of_firstFault?_eq_some {tests : List TestCase} {test : TestCase}
    (fault : firstFault? respond tests = some test) : test ∈ tests :=
  List.mem_of_find?_eq_some fault

theorem finalMessage?_eq_some_iff {worker : Nat} {tests : List TestCase} {results : List TestResult}
    {message : Message} :
    finalMessage? respond worker tests results = some message ↔
      (firstFault? respond tests = none ∧ message = .results worker results) ∨
        ∃ test error, firstFault? respond tests = some test ∧ respond test = .failure error ∧
          message = .fatal worker error := by
  rw [finalMessage?]
  cases fault : firstFault? respond tests with
  | none => simp [eq_comm]
  | some test => cases response : respond test <;> simp [response, eq_comm]

end

/-- What a worker that has the given results does with the rest of its tests. -/
structure WorkerRun.Follows (run : WorkerRun) (respond : TestCase → Response) (check : Bool)
    (decoder : Decoder) (worker : Nat) (results : List TestResult) (tests : List TestCase) : Prop where
  calls_eq : run.events.filterMap Event.call? = (attempted respond tests).map (Prod.mk worker)
  reports_eq : reports run.messages =
    (finalMessage? respond worker tests
      (results ++ tests.filterMap (testResult? respond check decoder))).toList
  crashed_eq : run.crashed = ((firstFault? respond tests).map respond == some .breakdown)

section

variable {respond : TestCase → Response} {test : TestCase} {rest : List TestCase}

theorem firstFault?_cons_of_isOutcome (outcome : (respond test).isOutcome) :
    firstFault? respond (test :: rest) = firstFault? respond rest := by
  simp [firstFault?, outcome]

theorem firstFault?_cons_of_fault (fault : (respond test).isOutcome = false) :
    firstFault? respond (test :: rest) = some test := by
  simp [firstFault?, fault]

theorem attempted_cons_of_isOutcome (outcome : (respond test).isOutcome) :
    attempted respond (test :: rest) = test :: attempted respond rest := by
  simp [attempted, outcome, firstFault?_cons_of_isOutcome outcome]

theorem attempted_cons_of_fault (fault : (respond test).isOutcome = false) :
    attempted respond (test :: rest) = [test] := by
  simp [attempted, fault, firstFault?_cons_of_fault fault]

end

theorem filterMap_call?_progressEvents (worker completed total : Nat) :
    (progressEvents worker completed total).filterMap Event.call? = [] := by
  unfold progressEvents
  split <;> rfl

theorem reports_progressEvents (worker completed total : Nat) :
    reports ((progressEvents worker completed total).filterMap Event.message?) = [] := by
  unfold progressEvents
  split <;> rfl

namespace WorkerRun.Follows

variable {run : WorkerRun} {respond : TestCase → Response} {check : Bool} {decoder : Decoder}
  {worker : Nat} {results : List TestResult} {test : TestCase} {rest : List TestCase}

/-- A worker whose next test fails does no more than have it assembled. -/
theorem of_fault (fault : (respond test).isOutcome = false)
    (calls : run.events.filterMap Event.call? = [(worker, test)])
    (sent : reports run.messages =
      match respond test with
      | .failure error => [.fatal worker error]
      | _ => [])
    (crashed : run.crashed = (respond test == .breakdown)) :
    run.Follows respond check decoder worker results (test :: rest) := by
  refine ⟨?_, ?_, ?_⟩
  · rw [calls, attempted_cons_of_fault fault]
    rfl
  · rw [sent, finalMessage?, firstFault?_cons_of_fault fault, Option.map_some]
    cases response : respond test with
    | outcome outcome => simp [response, Response.isOutcome] at fault
    | failure error => rfl
    | breakdown => rfl
  · rw [crashed, firstFault?_cons_of_fault fault]
    rfl

/-- A worker whose next test does not fail goes on with one more result. -/
theorem cons {outcome : Outcome} (response : respond test = .outcome outcome)
    (later : run.Follows respond check decoder worker
      (results ++ [⟨test, checkedOutcome check decoder test.variant outcome⟩]) rest)
    (completed total : Nat) :
    WorkerRun.Follows
      ⟨.call worker test :: progressEvents worker completed total ++ run.events, run.crashed⟩
      respond check decoder worker results (test :: rest) := by
  have success : (respond test).isOutcome := by rw [response]; rfl
  refine ⟨?_, ?_, ?_⟩
  · rw [attempted_cons_of_isOutcome success, List.map_cons, ← later.calls_eq]
    simp [filterMap_call?_progressEvents, Event.call?]
  · have result : testResult? respond check decoder test =
        some ⟨test, checkedOutcome check decoder test.variant outcome⟩ := by
      rw [testResult?, response]
    rw [finalMessage?, firstFault?_cons_of_isOutcome success, List.filterMap_cons_some result,
      List.append_cons]
    refine Eq.trans ?_ later.reports_eq
    rw [WorkerRun.messages, List.cons_append, List.filterMap_cons_none rfl, List.filterMap_append,
      reports_append, reports_progressEvents, List.nil_append, WorkerRun.messages]
  · rw [firstFault?_cons_of_isOutcome success]
    exact later.crashed_eq

end WorkerRun.Follows

namespace WorkerTask

variable {σ : Type} (task : WorkerTask σ) {respond : Nat → TestCase → Response}

/-- One step of a worker, for each response. -/
theorem run_cons (responds : task.assembler.Responds respond) (results : List TestResult)
    (test : TestCase) (rest : List TestCase) (state : σ) :
    (task.run results (test :: rest) state).1 =
      match respond task.worker test with
      | .breakdown => ⟨[.call task.worker test], true⟩
      | .failure error =>
          ⟨[.call task.worker test, .release task.worker, .send (.fatal task.worker error)], false⟩
      | .outcome outcome =>
          let checked := checkedOutcome task.check task.decoder test.variant outcome
          let after := (task.assembler.assemble task.worker test state).2
          let run := (task.run (⟨test, checked⟩ :: results) rest after).1
          ⟨.call task.worker test ::
              progressEvents task.worker (results.length + 1) task.total ++ run.events,
            run.crashed⟩ := by
  rw [← responds task.worker test state, run]
  rcases task.assembler.assemble task.worker test state with ⟨answer, after⟩
  cases answer <;> rfl

theorem run_follows (responds : task.assembler.Responds respond) (results : List TestResult)
    (tests : List TestCase) (state : σ) :
    (task.run results tests state).1.Follows (respond task.worker) task.check task.decoder task.worker
      results.reverse tests := by
  -- The results so far grow with each test, so they are general in the induction, as is the state.
  induction tests generalizing results state with
  | nil =>
      refine ⟨rfl, ?_, rfl⟩
      rw [List.filterMap_nil, List.append_nil]
      rfl
  | cons test rest ih =>
      rw [run_cons task responds]
      cases response : respond task.worker test with
      | breakdown =>
          exact .of_fault (by rw [response]; rfl) rfl (by rw [response]; rfl) (by rw [response]; rfl)
      | failure error =>
          exact .of_fault (by rw [response]; rfl) rfl (by rw [response]; rfl) (by rw [response]; rfl)
      | outcome outcome =>
          refine .cons response ?_ (results.length + 1) task.total
          rw [← List.reverse_cons]
          exact ih _ _

end WorkerTask

end OpcodeTable
