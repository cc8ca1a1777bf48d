import OpcodeTable.Corpus
import OpcodeTable.Options.Basic

/-!
# Arguments

The arguments of the command line, read from left to right. An option with a value takes it after an equals
sign or as the next argument; no option may be given twice. After two dashes every argument is a path. A
fault counts where it stands, so a request for help before it is still answered.
-/

namespace OpcodeTable.CommandLine

inductive OptionName where
  | strict | includeDeprecated | target | lookup | records | format | dialect | workers | maxCases
  | noDecodeCheck
deriving DecidableEq, Repr

/-- The spelling of an option after its dashes. -/
def OptionName.spelling : OptionName → String
  | .strict => "strict"
  | .includeDeprecated => "include-deprecated"
  | .target => "target"
  | .lookup => "lookup"
  | .records => "records"
  | .format => "format"
  | .dialect => "dialect"
  | .workers => "workers"
  | .maxCases => "max-cases"
  | .noDecodeCheck => "no-decode-check"

def OptionName.takesValue : OptionName → Bool
  | .strict | .includeDeprecated | .noDecodeCheck => false
  | _ => true

inductive CommandName where
  | generate | validate
deriving DecidableEq, Repr

/-- The command that a word names. -/
def CommandName.parse? : String → Option CommandName
  | "generate" => some .generate
  | "validate" => some .validate
  | _ => none

def CommandName.options : CommandName → List OptionName
  | .generate => [.strict, .includeDeprecated, .target, .lookup, .records]
  | .validate =>
      [.strict, .includeDeprecated, .target, .format, .dialect, .workers, .maxCases, .noDecodeCheck]

/-- The target that a value names. -/
def readTarget? : String → Option Target
  | "x86" => some .x86
  | "x64" => some .x64
  | _ => none

/-- The dialect that a value names. -/
def readDialect? : String → Option Dialect
  | "nasm" => some .nasm
  | "gas" => some .gas
  | _ => none

/-- The corpus format that a value names. -/
def readFormat? : String → Option CorpusFormat
  | "line" => some .line
  | "call" => some .call
  | _ => none

/-- The value of an option can be read. -/
def OptionName.admits (name : OptionName) (value : String) : Bool :=
  match name with
  | .target => (readTarget? value).isSome
  | .dialect => (readDialect? value).isSome
  | .format => (readFormat? value).isSome
  | .workers | .maxCases => (Text.readSize? value).isSome
  | .lookup | .records => !value.isEmpty
  | .strict | .includeDeprecated | .noDecodeCheck => true

/-- The options of a command with their values, an empty one where they take none, and its paths. -/
structure Arguments where
  options : List (OptionName × String) := []
  paths : List String := []
deriving DecidableEq, Repr

namespace Arguments

def value? (arguments : Arguments) (name : OptionName) : Option String :=
  arguments.options.lookup name

/-- The option was given. -/
def has (arguments : Arguments) (name : OptionName) : Bool :=
  (arguments.value? name).isSome

/-- Take an option, once and with a value that can be read. -/
def addOption? (arguments : Arguments) (name : OptionName) (value : String) : Option Arguments :=
  if arguments.has name || !name.admits value then
    none
  else
    some { arguments with options := arguments.options ++ [(name, value)] }

/-- Take a path. There are two, and none is empty. -/
def addPath? (arguments : Arguments) (path : String) : Option Arguments :=
  if path.isEmpty || 2 ≤ arguments.paths.length then
    none
  else
    some { arguments with paths := arguments.paths ++ [path] }

end Arguments

/-- What the arguments of a command ask for. -/
inductive Request where
  | help
  | run (arguments : Arguments)
deriving DecidableEq, Repr

/-- The argument is an option and no path. -/
def looksLikeOption (word : String) : Bool :=
  word.toList.head? == some '-' && word != "-"

/-- Read the arguments of a command. Nothing is returned if they are at fault. -/
def readArguments? (command : CommandName) : Bool → Arguments → List String → Option Request
  | _, arguments, [] => some (.run arguments)
  | true, arguments, word :: rest =>
      match arguments.addPath? word with
      | some arguments => readArguments? command true arguments rest
      | none => none
  | false, arguments, word :: rest =>
      if word == "--" then
        readArguments? command true arguments rest
      else
        match word.toList with
        | '-' :: '-' :: body =>
            let spelling := String.ofList (body.takeWhile (· != '='))
            let attached? : Option String :=
              if body.contains '=' then
                some (String.ofList ((body.dropWhile (· != '=')).drop 1))
              else
                none
            if spelling == "help" then
              if attached?.isSome then none else some .help
            else
              match command.options.find? fun name => name.spelling == spelling with
              | none => none
              | some name =>
                  match name.takesValue, attached? with
                  | false, some _ => none
                  | false, none =>
                      match arguments.addOption? name "" with
                      | some arguments => readArguments? command false arguments rest
                      | none => none
                  | true, some value =>
                      match arguments.addOption? name value with
                      | some arguments => readArguments? command false arguments rest
                      | none => none
                  | true, none =>
                      match rest with
                      | value :: later =>
                          if looksLikeOption value then
                            none
                          else
                            match arguments.addOption? name value with
                            | some arguments => readArguments? command false arguments later
                            | none => none
                      | [] => none
        | '-' :: letter :: _ => if letter == 'h' then some .help else none
        | _ =>
            match arguments.addPath? word with
            | some arguments => readArguments? command false arguments rest
            | none => none

/-- What is given for every command. -/
structure BuildArguments where
  input : String
  strict : Bool
  includeDeprecated : Bool
  target : Option Target
deriving DecidableEq, Repr

/-- What the command line asks for. -/
inductive Invocation where
  | information
  | generate (build : BuildArguments) (output : String) (lookup records : Option String)
  | validate (build : BuildArguments) (output : String) (format : CorpusFormat)
      (dialect : Option Dialect) (workers maxCases : Option Nat) (skipDecodeCheck : Bool)
deriving DecidableEq, Repr

/-- The invocation of a command with its arguments. Both paths must be there. -/
def invocation? (command : CommandName) (arguments : Arguments) : Option Invocation :=
  match arguments.paths with
  | [input, output] =>
      let build : BuildArguments :=
        { input := input
          strict := arguments.has .strict
          includeDeprecated := arguments.has .includeDeprecated
          target := (arguments.value? .target).bind readTarget? }
      match command with
      | .generate =>
          some (.generate build output (arguments.value? .lookup) (arguments.value? .records))
      | .validate =>
          some (.validate build output (((arguments.value? .format).bind readFormat?).getD .line)
            ((arguments.value? .dialect).bind readDialect?)
            ((arguments.value? .workers).bind Text.readSize?)
            ((arguments.value? .maxCases).bind Text.readSize?)
            (arguments.has .noDecodeCheck))
  | _ => none

/-- What is asked for help about: the program, or one of its commands. -/
def helpTopic (words : List String) : Option Invocation :=
  match words with
  | [] => some .information
  | [word] =>
      if (CommandName.parse? word).isSome || word == "help" then some .information else none
  | _ => none

/-- Read a command line. Nothing is returned if it is at fault. -/
def parse? (words : List String) : Option Invocation :=
  match words with
  | [] => none
  | word :: rest =>
      match CommandName.parse? word with
      | some command =>
          match readArguments? command false {} rest with
          | some .help => some .information
          | some (.run arguments) => invocation? command arguments
          | none => none
      | none =>
          if word == "help" then
            helpTopic rest
          else if word == "--help" || word == "--version" then
            some .information
          else
            match word.toList with
            | '-' :: letter :: _ => if letter == 'h' || letter == 'V' then some .information else none
            | _ => none

end OpcodeTable.CommandLine
