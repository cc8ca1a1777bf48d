import OpcodeTable.CommandLine.Run
import OpcodeTable.Script.Launch

/-!
# The program

The outer layer: it loads the files that the command line names into a file tree, runs the command line on
it, and writes back the files that changed. What the program does is decided by `CommandLine.run`.

The layer does less than its surroundings could. It has no decoder, so a validation accepts no bytes unless
the check of bytes is skipped. It takes the hardware to run one thread, so there is one worker. It starts no
processes: the scripts among the assembler's programs are read and run on the file tree, and any other program
cannot be executed.
-/

namespace OpcodeTable.Main

open CommandLine

/-- The variables that options are read from. -/
def variableNames : List String :=
  ["ENCTAB_STRICT", "ENCTAB_INCLUDE_DEPRECATED", "ENCTAB_TARGET", "ENCTAB_DIALECT", "ENCTAB_WORKERS",
    "ENCTAB_SCRATCH"]

/-- The programs that assemblers are made of. -/
def programNames : List String :=
  ["nasm", "as", "objcopy"]

/-- The files that a command reads. -/
def inputPaths : Invocation → List String
  | .information => []
  | .generate build _ _ _ => [build.input]
  | .validate build _ _ _ _ _ _ => [build.input]

/-- Load a file into the tree, if it can be read. -/
def load (tree : FileTree) (path : String) : IO FileTree := do
  match ← (IO.FS.readBinFile path).toBaseIO with
  | .error _ => return tree
  | .ok content =>
      let folder := "/".intercalate (FileTree.parts path).dropLast
      let tree := if folder.isEmpty then tree else (tree.makeDirectories folder).toOption.getD tree
      return (tree.write path content.toList).toOption.getD tree

/-- Make the directories of a path in the tree, so that writing to it is tried. -/
def expect (tree : FileTree) (path : String) : FileTree :=
  let folder := "/".intercalate (FileTree.parts path).dropLast
  if folder.isEmpty then tree else (tree.makeDirectories folder).toOption.getD tree

/-- The values of the variables that are set. -/
def loadVariables (names : List String) : IO Environment := do
  let values ← names.mapM fun name => do return (name, ← IO.getEnv name)
  return values.filterMap fun (name, value?) => value?.map fun value => (name, value)

/-- The scripts among the programs on the search path. -/
def loadPrograms (directories : List String) : IO (List (String × String)) := do
  let found ← programNames.mapM fun program => directories.filterMapM fun directory => do
    match ← (IO.FS.readFile (joinPath directory program)).toBaseIO with
    | .error _ => return none
    | .ok script => return some (program, script)
  return found.filterMap List.head?

/-- Why a file could not be written. -/
def reason : IO.Error → String
  | .noFileOrDirectory .. => FileError.notFound.message
  | .permissionDenied .. => FileError.notPermitted.message
  | .inappropriateType _ code _ =>
      if code = 21 then FileError.isDirectory.message else FileError.notDirectory.message
  | error => toString error

/-- Write back a file. The failure is reported as the program reports its own. -/
def store (tree : FileTree) (path : String) : IO Bool := do
  match tree.read path with
  | .error _ => return true
  | .ok content =>
      match ← (IO.FS.writeBinFile path ⟨content.toArray⟩).toBaseIO with
      | .ok _ => return true
      | .error error =>
          let failure := Failure.uncreatable path (reason error)
          IO.eprint ("Error: " ++ failure.record?.getD "" ++ "\n")
          return false

end OpcodeTable.Main

open OpcodeTable in
/-- Run the command line. -/
def main (words : List String) : IO UInt32 := do
  let environment ← Main.loadVariables Main.variableNames
  let search := (← IO.getEnv "PATH").getD ""
  let programs ← Main.loadPrograms ((Text.pieces (· == ':') search.toList).map String.ofList)
  match CommandLine.parse? words with
  | none =>
      IO.eprintln "usage: generate|validate <input> <output> [options]"
      return 2
  | some invocation =>
      let start := invocation.outputPaths.foldl Main.expect (FileTree.standard "work")
      let tree ← (Main.inputPaths invocation).foldlM Main.load start
      let launch := Script.launcher
        { directory := "/programs", programs := programs, bindings := ("PATH", search) :: environment }
      let ending := CommandLine.run
        { environment := environment, launch := launch, hardware := 1, decoder := fun _ => []
          temporary := "/tmp", process := 1 } words tree
      match ending.report? with
      | some text => IO.eprint text
      | none => pure ()
      let written ← invocation.outputPaths.allM (Main.store ending.tree)
      return if written then UInt32.ofNat ending.code else 1
