import OpcodeTable.CommandLine.Arguments
import OpcodeTable.ExternalAssembler
import OpcodeTable.FaultRecord
import OpcodeTable.Pool.Run
import OpcodeTable.Table.Printer
import OpcodeTable.Table.Record

/-!
# Running the command line

A command reads its database, builds the table, and writes its files one after the other, so a file that
cannot be created leaves those before it in place. A validation run writes its corpus only after all tests
have run.
-/

namespace OpcodeTable.CommandLine

/-- What a command needs besides its arguments. Files that are not kept go below `temporary`; `spawnFailure`
and `deliver` are those of the worker pool. -/
structure Setting where
  environment : Environment
  launch : Launcher
  hardware : Nat
  decoder : Decoder
  temporary : String
  process : Nat
  spawnFailure : Option (Nat × String) := none
  deliver : List (List Message) → List Message := List.flatten

/-- Why a command ended without success. -/
inductive Failure where
  | unreadable (path reason : String)
  | build (error : BuildError)
  | unavailable (program : String)
  | pool (error : PoolError)
  | uncreatable (path reason : String)
deriving DecidableEq, Repr

/-- The text that shows a failure, if it is one that can be shown. -/
def Failure.record? : Failure → Option String
  | .unreadable path reason => some (Text.quoted ("cannot read " ++ path ++ ": " ++ reason))
  | .build error => error.record?
  | .unavailable program =>
      some (Text.quoted ("reference assembler '" ++ program ++ "' is not available"))
  | .pool error => some error.record
  | .uncreatable path reason => some (Text.quoted ("cannot create " ++ path ++ ": " ++ reason))

/-- What came of a command. -/
structure Outcome where
  failure : Option Failure
  tree : FileTree

def BuildArguments.options (arguments : BuildArguments) (environment : Environment) : BuildOptions :=
  let options := environment.buildOptions
  { strict := options.strict || arguments.strict
    includeDeprecated := options.includeDeprecated || arguments.includeDeprecated
    target := arguments.target.getD options.target }

/-- Read the database and build the table. -/
def BuildArguments.build (arguments : BuildArguments) (environment : Environment) (tree : FileTree) :
    Except Failure Table :=
  match tree.read arguments.input with
  | .error error => .error (.unreadable arguments.input error.message)
  | .ok bytes =>
      match Text.decode? bytes with
      | none => .error (.unreadable arguments.input "stream did not contain valid UTF-8")
      | some text =>
          match buildText (arguments.options environment) text with
          | .error error => .error (.build error)
          | .ok build => .ok build.table

/-- Write a text to a file. -/
def create (path text : String) (tree : FileTree) : Except Failure FileTree :=
  match tree.write path (Text.utf8 text) with
  | .error error => .error (.uncreatable path error.message)
  | .ok tree => .ok tree

/-- Write texts to files one after the other, up to the first that cannot be created. -/
def createAll : List (String × String) → FileTree → Outcome
  | [], tree => ⟨none, tree⟩
  | (path, text) :: rest, tree =>
      match create path text tree with
      | .error failure => ⟨some failure, tree⟩
      | .ok tree => createAll rest tree

def tableFiles (table : Table) (output : String) (lookup records : Option String) :
    List (String × String) :=
  (output, table.text) ::
    (lookup.toList.map fun path => (path, table.lookupText)) ++
    (records.toList.map fun path => (path, table.recordsText))

def validationOptions (environment : Environment) (dialect : Option Dialect)
    (workers maxCases : Option Nat) (skipDecodeCheck : Bool) : ValidationOptions :=
  let options := environment.validationOptions
  let options :=
    match dialect with
    | some dialect => options.setDialect dialect
    | none => options
  { options with
    workerLimit := workers <|> options.workerLimit
    casesPerRow := maxCases
    decodeCheck := options.decodeCheck && !skipDecodeCheck }

/-- The assembler of a validation run. -/
def Setting.assembler (setting : Setting) (options : ValidationOptions) : ExternalAssembler :=
  .ofOptions options setting.temporary setting.process 0

/-- The worker pool of a validation run. -/
def Setting.pool (setting : Setting) (options : ValidationOptions) : Pool FileTree where
  options := options
  hardware := setting.hardware
  decoder := setting.decoder
  assembler := (setting.assembler options).toAssembler setting.launch
  spawnFailure := setting.spawnFailure
  deliver := setting.deliver

/-- Validate a table and write the corpus. -/
def validateTable (setting : Setting) (options : ValidationOptions) (format : CorpusFormat)
    (output : String) (table : Table) (tree : FileTree) : Outcome :=
  match (setting.assembler options).isAvailable setting.launch tree with
  | (false, tree) =>
      ⟨some (.unavailable ((options.assembler.head?.map CommandStep.program).getD "")), tree⟩
  | (true, tree) =>
      let run := table.validate (setting.pool options) tree
      match run.result with
      | .error error => ⟨some (.pool error), run.state⟩
      | .ok results => createAll [(output, corpusText format results)] run.state

/-- The files that a command writes. -/
def Invocation.outputPaths : Invocation → List String
  | .information => []
  | .generate _ output lookup records => output :: lookup.toList ++ records.toList
  | .validate _ output _ _ _ _ _ => [output]

/-- Run what the command line asks for. -/
def Invocation.run (setting : Setting) (invocation : Invocation) (tree : FileTree) : Outcome :=
  match invocation with
  | .information => ⟨none, tree⟩
  | .generate build output lookup records =>
      match build.build setting.environment tree with
      | .error failure => ⟨some failure, tree⟩
      | .ok table => createAll (tableFiles table output lookup records) tree
  | .validate build output format dialect workers maxCases skipDecodeCheck =>
      match build.build setting.environment tree with
      | .error failure => ⟨some failure, tree⟩
      | .ok table =>
          let options := validationOptions setting.environment dialect workers maxCases skipDecodeCheck
          validateTable setting options format output table tree

/-- How the program ends. The exit code is 0 for success, 1 for a failure and 2 for arguments at fault. -/
structure Ending where
  code : Nat
  failure : Option Failure
  tree : FileTree

/-- Run a command line. -/
def run (setting : Setting) (words : List String) (tree : FileTree) : Ending :=
  match parse? words with
  | none => ⟨2, none, tree⟩
  | some invocation =>
      let outcome := invocation.run setting tree
      ⟨if outcome.failure.isSome then 1 else 0, outcome.failure, outcome.tree⟩

/-- What the program reports at its end, if it failed and the failure can be shown. -/
def Ending.report? (ending : Ending) : Option String :=
  (ending.failure.bind Failure.record?).map fun record => "Error: " ++ record ++ "\n"

end OpcodeTable.CommandLine
