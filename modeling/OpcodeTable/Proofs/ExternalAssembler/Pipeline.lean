import OpcodeTable.Proofs.ExternalAssembler.Scratch

/-!
# The steps of a call

A call of an external assembler writes the source, runs the steps and reads the bytes. What comes of it is
decided by the first step that does not pass, or by the bytes if all pass. If the steps read and write
nothing but the files of the worker, it depends on nothing else in the tree.
-/

namespace OpcodeTable

open ScratchFiles

/-- A test that is given to an external assembler by a worker. -/
structure AssemblyCall where
  assembler : ExternalAssembler
  worker : Nat
  test : TestCase

namespace ScratchFiles

/-- A run that keeps to the files of a worker: it changes nothing else, and what comes of it depends on
nothing else. -/
structure Confined (directory : String)
    (run : FileTree → Except String ProgramResult × FileTree) : Prop where
  writes : ∀ tree, Ready directory tree → Changes directory tree (run tree).2
  reads : ∀ left right, Ready directory left → Ready directory right →
    contents directory left = contents directory right →
      (run left).1 = (run right).1 ∧ contents directory (run left).2 = contents directory (run right).2

end ScratchFiles

namespace AssemblyCall

def directory (call : AssemblyCall) : String :=
  call.assembler.scratchDirectory call.worker

def files (call : AssemblyCall) : ScratchFiles :=
  ScratchFiles.inDirectory call.directory

/-- Make the call on a tree. -/
def perform (call : AssemblyCall) (launch : Launcher) (tree : FileTree) : Response × FileTree :=
  call.assembler.assemble launch call.worker call.test tree

/-- Launch one step. -/
def runStep (call : AssemblyCall) (launch : Launcher) (step : CommandStep) :
    FileTree → Except String ProgramResult × FileTree :=
  launch step.program (step.arguments.map call.files.substitute)

def runSteps (call : AssemblyCall) (launch : Launcher) (steps : List CommandStep) (tree : FileTree) :
    Option Response × FileTree :=
  call.assembler.runSteps launch call.worker call.test call.files steps tree

/-- Steps that can be launched one after the other and all exit with 0 lead from a tree to another. -/
inductive Passes (call : AssemblyCall) (launch : Launcher) :
    List CommandStep → FileTree → FileTree → Prop
  | nil (tree : FileTree) : Passes call launch [] tree tree
  | cons {step : CommandStep} {rest : List CommandStep} {tree next last : FileTree}
      {errors : List UInt8} (ran : call.runStep launch step tree = (.ok ⟨.code 0, errors⟩, next))
      (later : Passes call launch rest next last) : Passes call launch (step :: rest) tree last

/-- How the response and the tree before cleaning up come from the tree with the source: by the first step
that cannot be launched or does not exit with 0, or by the bytes if there is none. -/
inductive Decides (call : AssemblyCall) (launch : Launcher) (start : FileTree) :
    Response → FileTree → Prop
  | unlaunched {before later : List CommandStep} {step : CommandStep} {stopped last : FileTree}
      {reason : String} (split : call.assembler.steps = before ++ step :: later)
      (passed : call.Passes launch before start stopped)
      (ran : call.runStep launch step stopped = (.error reason, last)) :
      Decides call launch start (.failure (.launch call.worker step.program reason)) last
  | rejected {before later : List CommandStep} {step : CommandStep} {stopped last : FileTree}
      {code : Int} {errors : List UInt8} (split : call.assembler.steps = before ++ step :: later)
      (passed : call.Passes launch before start stopped)
      (ran : call.runStep launch step stopped = (.ok ⟨.code code, errors⟩, last))
      (failed : code ≠ 0) (listed : code ∈ call.assembler.rejectionCodes) :
      Decides call launch start
        (.outcome (.rejected ⟨code, Text.trim (Text.decodeLossy errors)⟩)) last
  | unexpected {before later : List CommandStep} {step : CommandStep} {stopped last : FileTree}
      {status : ExitStatus} {errors : List UInt8}
      (split : call.assembler.steps = before ++ step :: later)
      (passed : call.Passes launch before start stopped)
      (ran : call.runStep launch step stopped = (.ok ⟨status, errors⟩, last))
      (failed : status ≠ .code 0)
      (unlisted : ∀ code, status = .code code → code ∉ call.assembler.rejectionCodes) :
      Decides call launch start
        (.failure (.unexpectedExit call.worker step.program status call.test.text)) last
  | encoded {last : FileTree} {bytes : List UInt8}
      (passed : call.Passes launch call.assembler.steps start last)
      (found : last.read call.files.binary = .ok bytes) :
      Decides call launch start (.outcome (.encoded bytes)) last
  | unwritten {last : FileTree} (passed : call.Passes launch call.assembler.steps start last)
      (missing : last.read call.files.binary = .error .notFound) :
      Decides call launch start (.failure (.scratch call.worker FileError.notFound.message)) last

variable {call : AssemblyCall} {launch : Launcher}

/-! ## Runs of steps -/

/-- The response that the result of a step ends the call with, if it does. -/
def verdict? (call : AssemblyCall) (step : CommandStep) :
    Except String ProgramResult → Option Response
  | .error reason => some (.failure (.launch call.worker step.program reason))
  | .ok result =>
      match result.status with
      | .code 0 => none
      | .code code =>
          if call.assembler.rejectionCodes.contains code then
            some (.outcome (.rejected ⟨code, Text.trim (Text.decodeLossy result.errors)⟩))
          else
            some (.failure (.unexpectedExit call.worker step.program (.code code) call.test.text))
      | .signal =>
          some (.failure (.unexpectedExit call.worker step.program .signal call.test.text))

theorem runSteps_cons (step : CommandStep) (rest : List CommandStep) (tree : FileTree) :
    call.runSteps launch (step :: rest) tree =
      (call.verdict? step (call.runStep launch step tree).1).elim
        (call.runSteps launch rest (call.runStep launch step tree).2)
        fun response => (some response, (call.runStep launch step tree).2) := by
  rw [runSteps, ExternalAssembler.runSteps, runStep]
  rcases launch step.program (step.arguments.map call.files.substitute) tree with ⟨_ | result, next⟩
  · rfl
  · rcases result with ⟨status, errors⟩
    cases status with
    | signal => rfl
    | code code =>
        by_cases passed : code = 0
        · subst passed
          rfl
        · simp only [verdict?]
          split_ifs <;> rfl

theorem verdict?_eq_none_iff {step : CommandStep} {result : Except String ProgramResult} :
    call.verdict? step result = none ↔ ∃ errors, result = .ok ⟨.code 0, errors⟩ := by
  rcases result with _ | ⟨status, errors⟩
  · simp [verdict?]
  · cases status with
    | signal => simp [verdict?]
    | code code =>
        by_cases passed : code = 0
        · simp [verdict?, passed]
        · simp only [verdict?]
          split_ifs <;> simp [passed]

/-- Steps run without a response exactly if they all pass. -/
theorem runSteps_eq_none_iff {steps : List CommandStep} {tree last : FileTree} :
    call.runSteps launch steps tree = (none, last) ↔ call.Passes launch steps tree last := by
  induction steps generalizing tree with
  | nil =>
      constructor
      · intro ran
        obtain rfl : tree = last := (Prod.mk.inj ran).2
        exact .nil tree
      · rintro ⟨⟩
        rfl
  | cons step rest ih =>
      rw [runSteps_cons]
      constructor
      · intro ran
        cases verdict : call.verdict? step (call.runStep launch step tree).1 with
        | some response => simp [verdict] at ran
        | none =>
            obtain ⟨errors, passed⟩ := verdict?_eq_none_iff.mp verdict
            rw [verdict] at ran
            exact .cons (Prod.ext passed rfl) (ih.mp ran)
      · rintro (_ | ⟨ran, later⟩)
        rw [ran]
        exact ih.mpr later

/-- Steps run up to a response exactly if one of them gives it and those before it pass. -/
theorem runSteps_eq_some_iff {steps : List CommandStep} {tree last : FileTree} {response : Response} :
    call.runSteps launch steps tree = (some response, last) ↔
      ∃ before step later stopped result, steps = before ++ step :: later ∧
        call.Passes launch before tree stopped ∧
        call.runStep launch step stopped = (result, last) ∧
        call.verdict? step result = some response := by
  induction steps generalizing tree with
  | nil => simp [runSteps, ExternalAssembler.runSteps]
  | cons step rest ih =>
      rw [runSteps_cons]
      cases verdict : call.verdict? step (call.runStep launch step tree).1 with
      | some given =>
          constructor
          · intro ran
            obtain ⟨sameResponse, sameTree⟩ := Prod.mk.inj ran
            exact ⟨[], step, rest, tree, _, rfl, .nil tree, Prod.ext rfl sameTree,
              verdict.trans sameResponse⟩
          · rintro ⟨before, stopping, later, stopped, result, split, passed, ran, decided⟩
            cases passed with
            | nil =>
                obtain ⟨rfl, -⟩ := List.cons.inj split
                rw [ran] at verdict ⊢
                exact Prod.ext (verdict.symm.trans decided) rfl
            | cons passing _ =>
                obtain ⟨rfl, -⟩ := List.cons.inj split
                rw [passing, verdict?_eq_none_iff.mpr ⟨_, rfl⟩] at verdict
                cases verdict
      | none =>
          obtain ⟨errors, passing⟩ := verdict?_eq_none_iff.mp verdict
          have ranFirst : call.runStep launch step tree = (.ok ⟨.code 0, errors⟩, _) :=
            Prod.ext passing rfl
          refine ih.trans ⟨?_, ?_⟩
          · rintro ⟨before, stopping, later, stopped, result, rfl, passed, ran, decided⟩
            exact ⟨step :: before, stopping, later, stopped, result, rfl, .cons ranFirst passed, ran,
              decided⟩
          · rintro ⟨before, stopping, later, stopped, result, split, passed, ran, decided⟩
            cases passed with
            | nil =>
                obtain ⟨rfl, -⟩ := List.cons.inj split
                rw [ran, decided] at verdict
                cases verdict
            | @cons _ before _ next _ _ ranAgain passed =>
                obtain ⟨rfl, rfl⟩ := List.cons.inj split
                rw [ranAgain]
                exact ⟨before, stopping, later, stopped, result, rfl, passed, ran, decided⟩

/-! ## The response -/

/-- The response to a test whose steps have all passed. -/
def readBytes (call : AssemblyCall) (tree : FileTree) : Response :=
  match tree.read call.files.binary with
  | .error error => .failure (.scratch call.worker error.message)
  | .ok bytes => .outcome (.encoded bytes)

/-- The response to a test whose source is written, and the tree before cleaning up. -/
def conclude (call : AssemblyCall) (launch : Launcher) (start : FileTree) : Response × FileTree :=
  let ran := call.runSteps launch call.assembler.steps start
  (ran.1.getD (call.readBytes ran.2), ran.2)

theorem perform_eq {tree made start : FileTree}
    (opened : tree.makeDirectories call.directory = .ok made)
    (written : made.write call.files.source
      (Text.utf8 (call.test.source call.assembler.dialect)) = .ok start) :
    call.perform launch tree =
      ((call.conclude launch start).1, call.files.cleanUp (call.conclude launch start).2) := by
  have tested : call.assembler.runTest launch call.worker call.test call.files made =
      call.conclude launch start := by
    rw [conclude]
    rcases ran : call.runSteps launch call.assembler.steps start with ⟨given, last⟩
    rw [runSteps] at ran
    cases given with
    | some response => simp only [ExternalAssembler.runTest, written, ran, Option.getD_some]
    | none =>
        simp only [ExternalAssembler.runTest, written, ran, Option.getD_none, readBytes]
        cases last.read call.files.binary <;> rfl
  rw [files, directory] at tested
  rw [directory] at opened
  simp only [perform, ExternalAssembler.assemble, opened, tested, files, directory]

theorem decides_of_verdict? {before later : List CommandStep} {step : CommandStep}
    {start stopped last : FileTree} {result : Except String ProgramResult} {response : Response}
    (split : call.assembler.steps = before ++ step :: later)
    (passed : call.Passes launch before start stopped)
    (ran : call.runStep launch step stopped = (result, last))
    (decided : call.verdict? step result = some response) :
    call.Decides launch start response last := by
  rcases result with reason | ⟨status, errors⟩
  · obtain rfl := Option.some.inj decided
    exact .unlaunched split passed ran
  · cases status with
    | signal =>
        obtain rfl := Option.some.inj decided
        exact .unexpected split passed ran (by simp) (by simp)
    | code code =>
        by_cases isZero : code = 0
        · rw [verdict?_eq_none_iff.mpr ⟨errors, by rw [isZero]⟩] at decided
          cases decided
        · simp only [verdict?] at decided
          split_ifs at decided with listed
          · obtain rfl := Option.some.inj decided
            exact .rejected split passed ran isZero (List.contains_iff_mem.mp listed)
          · obtain rfl := Option.some.inj decided
            refine .unexpected split passed ran (by simpa using isZero) ?_
            rintro _ ⟨⟩
            simpa using listed

theorem verdict?_unexpected {step : CommandStep} {status : ExitStatus} {errors : List UInt8}
    (failed : status ≠ .code 0)
    (unlisted : ∀ code, status = .code code → code ∉ call.assembler.rejectionCodes) :
    call.verdict? step (.ok ⟨status, errors⟩) =
      some (.failure (.unexpectedExit call.worker step.program status call.test.text)) := by
  cases status with
  | signal => rfl
  | code code =>
      have isNonzero : code ≠ 0 := by simpa using failed
      simp [verdict?, unlisted code rfl]

theorem verdict?_rejected {step : CommandStep} {code : Int} {errors : List UInt8}
    (failed : code ≠ 0) (listed : code ∈ call.assembler.rejectionCodes) :
    call.verdict? step (.ok ⟨.code code, errors⟩) =
      some (.outcome (.rejected ⟨code, Text.trim (Text.decodeLossy errors)⟩)) := by
  simp [verdict?, listed]

/-- What comes of the tree with the source is decided by the first step that does not pass, or by the bytes,
and nothing else comes of it. Of the errors of reading only a missing file is left. -/
theorem conclude_eq_iff {start last : FileTree} {response : Response}
    (readable : ∀ last, call.Passes launch call.assembler.steps start last →
      ∀ error, last.read call.files.binary = .error error → error = .notFound) :
    call.conclude launch start = (response, last) ↔ call.Decides launch start response last := by
  constructor
  · intro concluded
    cases ran : call.runSteps launch call.assembler.steps start with
    | mk given stopped =>
        rw [conclude, ran] at concluded
        obtain ⟨rfl, rfl⟩ := Prod.mk.inj concluded
        cases given with
        | some response =>
            obtain ⟨before, step, later, stopped, result, split, passed, ran, decided⟩ :=
              runSteps_eq_some_iff.mp ran
            exact decides_of_verdict? split passed ran decided
        | none =>
            have passed := runSteps_eq_none_iff.mp ran
            cases reading : stopped.read call.files.binary with
            | ok bytes => simpa [readBytes, reading] using Decides.encoded passed reading
            | error error =>
                obtain rfl := readable stopped passed error reading
                simpa [readBytes, reading] using Decides.unwritten passed reading
  · have stopping {before later : List CommandStep} {step : CommandStep} {stopped : FileTree}
        {result : Except String ProgramResult}
        (split : call.assembler.steps = before ++ step :: later)
        (passed : call.Passes launch before start stopped)
        (ran : call.runStep launch step stopped = (result, last))
        (decided : call.verdict? step result = some response) :
        call.conclude launch start = (response, last) := by
      rw [conclude, runSteps_eq_some_iff.mpr ⟨_, _, _, _, _, split, passed, ran, decided⟩]
      rfl
    intro decides
    cases decides with
    | unlaunched split passed ran => exact stopping split passed ran rfl
    | rejected split passed ran failed listed =>
        exact stopping split passed ran (verdict?_rejected failed listed)
    | unexpected split passed ran failed unlisted =>
        exact stopping split passed ran (verdict?_unexpected failed unlisted)
    | encoded passed found =>
        rw [conclude, runSteps_eq_none_iff.mpr passed]
        simp [readBytes, found]
    | unwritten passed missing =>
        rw [conclude, runSteps_eq_none_iff.mpr passed]
        simp [readBytes, missing]

/-! ## Steps that keep to the files of the worker -/

/-- Every step of the call keeps to the files of the worker. -/
def IsConfined (call : AssemblyCall) (launch : Launcher) : Prop :=
  ∀ step ∈ call.assembler.steps, Confined call.directory (call.runStep launch step)

theorem runSteps_changes {steps : List CommandStep} {tree : FileTree}
    (confined : ∀ step ∈ steps, Confined call.directory (call.runStep launch step))
    (ready : Ready call.directory tree) :
    Changes call.directory tree (call.runSteps launch steps tree).2 := by
  induction steps generalizing tree with
  | nil => exact ready.changes_self
  | cons step rest ih =>
      have changes := (confined step List.mem_cons_self).writes tree ready
      rw [runSteps_cons]
      cases call.verdict? step (call.runStep launch step tree).1 with
      | some response => exact changes
      | none =>
          have later := ih (fun other otherMem => confined other (List.mem_cons_of_mem step otherMem))
            (changes.ready ready)
          exact changes.trans later

/-- Two runs of steps that start with the same files go the same way. -/
theorem runSteps_reads {steps : List CommandStep} {left right : FileTree}
    (confined : ∀ step ∈ steps, Confined call.directory (call.runStep launch step))
    (leftReady : Ready call.directory left) (rightReady : Ready call.directory right)
    (same : contents call.directory left = contents call.directory right) :
    (call.runSteps launch steps left).1 = (call.runSteps launch steps right).1 ∧
      contents call.directory (call.runSteps launch steps left).2 =
        contents call.directory (call.runSteps launch steps right).2 := by
  induction steps generalizing left right with
  | nil => exact ⟨rfl, same⟩
  | cons step rest ih =>
      have stepConfined := confined step List.mem_cons_self
      obtain ⟨sameResult, sameAfter⟩ := stepConfined.reads left right leftReady rightReady same
      rw [runSteps_cons, runSteps_cons, sameResult]
      cases call.verdict? step (call.runStep launch step right).1 with
      | some response => exact ⟨rfl, sameAfter⟩
      | none =>
          exact ih (fun other otherMem => confined other (List.mem_cons_of_mem step otherMem))
            ((stepConfined.writes left leftReady).ready leftReady)
            ((stepConfined.writes right rightReady).ready rightReady) sameAfter

theorem read_binary {tree : FileTree} (ready : Ready call.directory tree) :
    tree.read call.files.binary =
      (tree.file? (tree.target call.files.binary)).elim (.error .notFound) .ok :=
  ready.read_eq binary_mem_texts

theorem readBytes_reads {left right : FileTree} (leftReady : Ready call.directory left)
    (rightReady : Ready call.directory right)
    (same : contents call.directory left = contents call.directory right) :
    call.readBytes left = call.readBytes right := by
  have sameFile := List.map_inj_left.mp same _ binary_mem_texts
  have sameRead : left.read call.files.binary = right.read call.files.binary := by
    rw [read_binary leftReady, read_binary rightReady, files, sameFile]
  rw [readBytes, readBytes, sameRead]

theorem conclude_changes {start : FileTree} (confined : call.IsConfined launch)
    (ready : Ready call.directory start) :
    Changes call.directory start (call.conclude launch start).2 :=
  runSteps_changes confined ready

/-- The response depends on nothing but the files of the worker. -/
theorem conclude_reads {left right : FileTree} (confined : call.IsConfined launch)
    (leftReady : Ready call.directory left) (rightReady : Ready call.directory right)
    (same : contents call.directory left = contents call.directory right) :
    (call.conclude launch left).1 = (call.conclude launch right).1 := by
  obtain ⟨sameResponse, sameAfter⟩ := runSteps_reads confined leftReady rightReady same
  have sameBytes := readBytes_reads ((runSteps_changes confined leftReady).ready leftReady)
    ((runSteps_changes confined rightReady).ready rightReady) sameAfter
  simp only [conclude, sameResponse, sameBytes]

theorem conclude_eq_iff_decides {start last : FileTree} {response : Response}
    (confined : call.IsConfined launch) (ready : Ready call.directory start) :
    call.conclude launch start = (response, last) ↔ call.Decides launch start response last := by
  apply conclude_eq_iff
  intro stopped passed error reading
  have ran := runSteps_eq_none_iff.mpr passed
  have changes := runSteps_changes confined ready
  rw [ran] at changes
  rw [read_binary (changes.ready ready)] at reading
  cases held : stopped.file? (stopped.target call.files.binary) with
  | none => simpa [held] using reading.symm
  | some bytes => simp [held] at reading

end AssemblyCall

end OpcodeTable
