import OpcodeTable.Proofs.ExternalAssembler.Pipeline
import OpcodeTable.Proofs.Pool.Release

/-!
# Files that an assembler does not touch

A file in none of the directories of the workers that are started stays as it is through a whole run of a
pool, unless one of the launched programs changes it. Directories are made only where nothing was, files are
written and taken away only in the directories of workers, and only these directories are taken away.
-/

namespace OpcodeTable

namespace FileTree

/-- The file at a path, if there is one, is the same in both trees. -/
structure SameFile (path : Path) (before after : FileTree) : Prop where
  current_eq : after.current = before.current
  file?_eq : after.file? path = before.file? path

variable {path : Path} {tree before after : FileTree} {text : String}

theorem SameFile.refl (path : Path) (tree : FileTree) : SameFile path tree tree :=
  ⟨rfl, rfl⟩

theorem SameFile.trans {last : FileTree} (first : SameFile path before after)
    (second : SameFile path after last) : SameFile path before last :=
  ⟨second.current_eq.trans first.current_eq, second.file?_eq.trans first.file?_eq⟩

end FileTree

namespace ExternalAssembler

open FileTree ScratchFiles

/-- The runs of programs that an assembler makes for workers: the first program is asked for its version,
and each step is run with the files of a worker. -/
inductive Launches (assembler : ExternalAssembler) (workers : Nat → Prop) : String → List String → Prop
  | version {step : CommandStep} (first : assembler.steps.head? = some step) :
      Launches assembler workers step.program [versionOption step.program]
  | step {step : CommandStep} (stepMem : step ∈ assembler.steps) {worker : Nat}
      (isWorker : workers worker) :
      Launches assembler workers step.program
        (step.arguments.map (inDirectory (assembler.scratchDirectory worker)).substitute)

/-- The assembler and its workers have nothing to do with the file at a path: the launched programs leave it
as it is, and it lies in the directory of none of the workers. -/
structure Spares (assembler : ExternalAssembler) (launch : Launcher) (workers : Nat → Prop)
    (tree : FileTree) (path : Path) : Prop where
  launched : ∀ program arguments, assembler.Launches workers program arguments →
    ∀ before : FileTree, before.current = tree.current →
      SameFile path before (launch program arguments before).2
  outside : ∀ worker, workers worker → ¬ tree.target (assembler.scratchDirectory worker) <+: path

variable {assembler : ExternalAssembler} {launch : Launcher} {workers : Nat → Prop} {tree : FileTree}
  {path : Path} {worker : Nat}

namespace Spares

theorem ne_target (spares : assembler.Spares launch workers tree path) (isWorker : workers worker)
    {text : String} (textMem : text ∈ (inDirectory (assembler.scratchDirectory worker)).texts) :
    path ≠ tree.target text := by
  rintro rfl
  obtain ⟨name, isName, rfl⟩ := exists_name_of_mem_texts textMem
  apply spares.outside worker isWorker
  rw [target_joinPath isName]
  exact List.prefix_append _ _

end Spares

end ExternalAssembler

end OpcodeTable
