import OpcodeTable.Options.Name
import OpcodeTable.Text.Decimal
import OpcodeTable.Text.Words

/-!
# Options

Options of a table build and of a validation run. Each has a default, which variables of the
environment override. A variable that cannot be read changes nothing.
-/

namespace OpcodeTable

/-- Variables with their values. -/
abbrev Environment := List (String × String)

structure BuildOptions where
  strict : Bool := false
  includeDeprecated : Bool := false
  target : Target := .x64
deriving DecidableEq, Repr

/-- One program run of an assembler, with its arguments. Arguments may hold places for the paths of the
source, object and binary file. -/
structure CommandStep where
  program : String
  arguments : List String
deriving DecidableEq, Repr

/-- The place of the source file's path in an argument. -/
def sourcePlace : String := Text.braced "src"

/-- The place of the object file's path in an argument. -/
def objectPlace : String := Text.braced "obj"

/-- The place of the binary file's path in an argument. -/
def binaryPlace : String := Text.braced "bin"

/-- The program runs that assemble a source file of a dialect. -/
def Dialect.assembler : Dialect → List CommandStep
  | .nasm => [⟨"nasm", ["-f", "bin", "-o", binaryPlace, sourcePlace]⟩]
  | .gas =>
      [⟨"as", ["--64", "-o", objectPlace, sourcePlace]⟩,
        ⟨"objcopy", ["-O", "binary", "-j", ".text", objectPlace, binaryPlace]⟩]

/-- Options of a validation run. The tests per worker bound the number of workers, and without a scratch root
the system's directory for such files is used. -/
structure ValidationOptions where
  dialect : Dialect := .nasm
  assembler : List CommandStep := Dialect.nasm.assembler
  workerLimit : Option Nat := none
  testsPerWorker : Nat := 1
  rejectionCodes : List Int := [1]
  scratchRoot : Option String := none
  decodeCheck : Bool := true
  casesPerRow : Option Nat := none
deriving DecidableEq, Repr

/-- Change the dialect, and with it the assembler. -/
def ValidationOptions.setDialect (options : ValidationOptions) (dialect : Dialect) :
    ValidationOptions :=
  { options with dialect := dialect, assembler := dialect.assembler }

namespace Environment

def value? (environment : Environment) (name : String) : Option String :=
  environment.lookup name

/-- A variable as a truth value. -/
def flag? (environment : Environment) (name : String) : Option Bool :=
  (environment.value? name).bind fun value =>
    match value.toLower with
    | "1" | "true" | "yes" | "on" => some true
    | "0" | "false" | "no" | "off" | "" => some false
    | _ => none

/-- The build options that the variables give. -/
def buildOptions (environment : Environment) : BuildOptions where
  strict := (environment.flag? "ENCTAB_STRICT").getD false
  includeDeprecated := (environment.flag? "ENCTAB_INCLUDE_DEPRECATED").getD false
  target :=
    ((environment.value? "ENCTAB_TARGET").bind fun word => (Target.parse word).toOption).getD .x64

/-- The dialect that the variables give. -/
def dialect (environment : Environment) : Dialect :=
  ((environment.value? "ENCTAB_DIALECT").bind fun word => (Dialect.parse word).toOption).getD .nasm

/-- The validation options that the variables give. A limit on workers is at least one. -/
def validationOptions (environment : Environment) : ValidationOptions where
  dialect := environment.dialect
  assembler := environment.dialect.assembler
  workerLimit := ((environment.value? "ENCTAB_WORKERS").bind Text.readSize?).map (max 1)
  scratchRoot := environment.value? "ENCTAB_SCRATCH"

end Environment

end OpcodeTable
