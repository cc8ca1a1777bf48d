import OpcodeTable.FileTree
import OpcodeTable.Pool.Worker
import OpcodeTable.Options.Basic
import OpcodeTable.Text.Replace

/-!
# External assemblers

An external assembler is a list of program runs that turn a source file into a file of bytes. Each worker
has a directory of its own for its files: the source is written there, the programs run one after the
other, the bytes are read back, and the files are taken away again whatever happened.
-/

namespace OpcodeTable

/-- What came of running a program. -/
structure ProgramResult where
  status : ExitStatus
  errors : List UInt8
deriving DecidableEq, Repr

/-- Runs a program with arguments on a file tree, or gives the reason why it could not be started. -/
abbrev Launcher := String → List String → FileTree → Except String ProgramResult × FileTree

structure ScratchFiles where
  source : String
  object : String
  binary : String
deriving DecidableEq, Repr

/-- A name in a directory. -/
def joinPath (directory name : String) : String :=
  if directory.isEmpty ∨ directory.toList.getLast? = some '/' then
    directory ++ name
  else
    directory ++ "/" ++ name

namespace ScratchFiles

def inDirectory (directory : String) : ScratchFiles where
  source := joinPath directory "test.asm"
  object := joinPath directory "test.o"
  binary := joinPath directory "test.bin"

/-- Fill in the paths of the files in an argument, one place after the other. -/
def substitute (files : ScratchFiles) (argument : String) : String :=
  let withSource := Text.replaceAll sourcePlace.toList files.source.toList argument.toList
  let withObject := Text.replaceAll objectPlace.toList files.object.toList withSource
  String.ofList (Text.replaceAll binaryPlace.toList files.binary.toList withObject)

/-- Take the files away. -/
def cleanUp (files : ScratchFiles) (tree : FileTree) : FileTree :=
  ((tree.removeFile files.source).removeFile files.object).removeFile files.binary

end ScratchFiles

/-- Program runs, with the exit codes that mean that an instruction was rejected. The workers' directories
lie in the scratch root; the numbers of the process and of the assembler in it keep their names apart. -/
structure ExternalAssembler where
  dialect : Dialect
  steps : List CommandStep
  rejectionCodes : List Int
  scratchRoot : String
  process : Nat
  serial : Nat
deriving DecidableEq, Repr

namespace ExternalAssembler

/-- The assembler of validation options. -/
def ofOptions (options : ValidationOptions) (temporary : String) (process serial : Nat) :
    ExternalAssembler where
  dialect := options.dialect
  steps := options.assembler
  rejectionCodes := options.rejectionCodes
  scratchRoot := options.scratchRoot.getD temporary
  process := process
  serial := serial

def scratchDirectory (assembler : ExternalAssembler) (worker : Nat) : String :=
  joinPath assembler.scratchRoot
    ("enctab_" ++ toString assembler.process ++ "_" ++ toString assembler.serial ++ "_w" ++
      toString worker)

/-- The option that asks a program for its version. -/
def versionOption (program : String) : String :=
  if program = "nasm" then "-v" else "--version"

/-- The first program can be run. -/
def isAvailable (assembler : ExternalAssembler) (launch : Launcher) (tree : FileTree) :
    Bool × FileTree :=
  match assembler.steps with
  | [] => (false, tree)
  | step :: _ =>
      match launch step.program [versionOption step.program] tree with
      | (.ok result, tree) => (result.status == .code 0, tree)
      | (.error _, tree) => (false, tree)

/-- Run the steps one after the other up to the first that does not succeed. Nothing is returned if all
succeed. -/
def runSteps (assembler : ExternalAssembler) (launch : Launcher) (worker : Nat) (test : TestCase)
    (files : ScratchFiles) : List CommandStep → FileTree → Option Response × FileTree
  | [], tree => (none, tree)
  | step :: rest, tree =>
      match launch step.program (step.arguments.map files.substitute) tree with
      | (.error reason, tree) => (some (.failure (.launch worker step.program reason)), tree)
      | (.ok result, tree) =>
          match result.status with
          | .code 0 => assembler.runSteps launch worker test files rest tree
          | .code code =>
              if assembler.rejectionCodes.contains code then
                (some (.outcome (.rejected ⟨code, Text.trim (Text.decodeLossy result.errors)⟩)), tree)
              else
                (some (.failure (.unexpectedExit worker step.program (.code code) test.text)), tree)
          | .signal => (some (.failure (.unexpectedExit worker step.program .signal test.text)), tree)

/-- Write the source, run the steps and read the bytes. -/
def runTest (assembler : ExternalAssembler) (launch : Launcher) (worker : Nat) (test : TestCase)
    (files : ScratchFiles) (tree : FileTree) : Response × FileTree :=
  match tree.write files.source (Text.utf8 (test.source assembler.dialect)) with
  | .error error => (.failure (.scratch worker error.message), tree)
  | .ok tree =>
      match assembler.runSteps launch worker test files assembler.steps tree with
      | (some response, tree) => (response, tree)
      | (none, tree) =>
          match tree.read files.binary with
          | .error error => (.failure (.scratch worker error.message), tree)
          | .ok bytes => (.outcome (.encoded bytes), tree)

/-- Assemble a test for a worker. -/
def assemble (assembler : ExternalAssembler) (launch : Launcher) (worker : Nat) (test : TestCase)
    (tree : FileTree) : Response × FileTree :=
  let directory := assembler.scratchDirectory worker
  match tree.makeDirectories directory with
  | .error error => (.failure (.scratch worker (directory ++ ": " ++ error.message)), tree)
  | .ok tree =>
      let files := ScratchFiles.inDirectory directory
      let (response, tree) := assembler.runTest launch worker test files tree
      (response, files.cleanUp tree)

/-- Take the directory of a worker away. -/
def release (assembler : ExternalAssembler) (worker : Nat) (tree : FileTree) : FileTree :=
  tree.removeDirectory (assembler.scratchDirectory worker)

/-- The assembler as workers use it. -/
def toAssembler (assembler : ExternalAssembler) (launch : Launcher) : Assembler FileTree where
  assemble := assembler.assemble launch
  release := assembler.release

end ExternalAssembler

end OpcodeTable
