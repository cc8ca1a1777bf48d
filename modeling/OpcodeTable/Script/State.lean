import OpcodeTable.FileTree
import OpcodeTable.Script.Basic
import OpcodeTable.Script.Format

/-!
# The state of a script

What a running script sees and changes: variables, arguments, functions, the file tree, and descriptors.
Descriptors that were copied from each other share one open file and its position.
-/

namespace OpcodeTable.Script

/-- What an open file reads from and writes to. -/
inductive OpenTarget where
  | file (path : Path)
  | stream (content : Bytes)
deriving DecidableEq, Repr

structure OpenFile where
  target : OpenTarget
  position : Nat := 0
  atEnd : Bool := false
deriving DecidableEq, Repr

/-- Whether a script goes on, and if not, what it leaves. It is stalled at the bound on the depth of a run. -/
inductive Flow where
  | running
  | ended
  | leaveLoop (count : Nat)
  | nextRound (count : Nat)
  | leaveFunction
  | killed
  | stalled
deriving DecidableEq, Repr

/-- What a running script sees and changes. Variables that a function made its own are saved with their
values from before, and descriptors have the numbers of open files. -/
structure State where
  tree : FileTree
  name : Bytes
  arguments : List Bytes := []
  bindings : List (Bytes × Bytes) := []
  saved : List (Bytes × Option Bytes) := []
  functions : List (Bytes × Command) := []
  status : Nat := 0
  outputStatus : Option Nat := none
  loops : Nat := 0
  flow : Flow := .running
  endsOnFailure : Bool := false
  files : List OpenFile := []
  descriptors : List (Nat × Nat) := []
  line : Nat := 1
deriving Repr

def bytesOf (text : String) : Bytes :=
  (Text.utf8 text).map fun byte => Char.ofNat byte.toNat

/-- Bytes as numbers of a byte. -/
def rawBytes (bytes : Bytes) : List UInt8 :=
  bytes.map fun c => UInt8.ofNat c.toNat

/-- Numbers of a byte as bytes. -/
def ofRawBytes (bytes : List UInt8) : Bytes :=
  bytes.map fun byte => Char.ofNat byte.toNat

def textOf (bytes : Bytes) : String :=
  Text.decodeLossy (rawBytes bytes)

/-- The number that stands for the process of a script. -/
def processNumber : Bytes := "4242".toList

namespace State

/-- The script goes on. -/
def isRunning (state : State) : Bool :=
  state.flow == .running

def withStatus (state : State) (status : Nat) : State :=
  { state with status := status }

/-- The value of a variable. -/
def lookUp? (state : State) (name : Bytes) : Option Bytes :=
  state.bindings.lookup name

def setVariable (state : State) (name value : Bytes) : State :=
  { state with bindings := (name, value) :: state.bindings.filter fun entry => entry.1 ≠ name }

/-- Take a variable away. -/
def unsetVariable (state : State) (name : Bytes) : State :=
  { state with bindings := state.bindings.filter fun entry => entry.1 ≠ name }

/-- Give a variable a value again, or none. -/
def restoreVariable (state : State) (name : Bytes) (value? : Option Bytes) : State :=
  match value? with
  | some value => state.setVariable name value
  | none => state.unsetVariable name

/-- The characters that separate fields. -/
def separators (state : State) : Bytes :=
  (state.lookUp? "IFS".toList).getD [' ', '\t', '\n']

def parameter? (state : State) (name : Bytes) : Option Bytes :=
  match name with
  | ['?'] => some (digitsOf 10 state.status)
  | ['#'] => some (digitsOf 10 state.arguments.length)
  | ['$'] => some processNumber
  | ['!'] => none
  | ['-'] => some (if state.endsOnFailure then ['e'] else [])
  | ['@'] => if state.arguments.isEmpty then none else some ([' '].intercalate state.arguments)
  | ['*'] =>
      if state.arguments.isEmpty then
        none
      else
        some ((state.separators.take 1).intercalate state.arguments)
  | _ =>
      if name.all Char.isDigit then
        match digitsValue name with
        | 0 => some state.name
        | index + 1 => state.arguments[index]?
      else
        state.lookUp? name

/-- The open file of a descriptor, with its number. -/
def openFile? (state : State) (descriptor : Nat) : Option (Nat × OpenFile) :=
  match state.descriptors.lookup descriptor with
  | none => none
  | some index => (state.files[index]?).map fun file => (index, file)

/-- Let a descriptor stand for an open file. -/
def setDescriptor (state : State) (descriptor index : Nat) : State :=
  { state with
    descriptors := (descriptor, index) :: state.descriptors.filter fun entry => entry.1 ≠ descriptor }

def closeDescriptor (state : State) (descriptor : Nat) : State :=
  { state with descriptors := state.descriptors.filter fun entry => entry.1 ≠ descriptor }

/-- Open a file under a descriptor. -/
def openUnder (state : State) (descriptor : Nat) (file : OpenFile) : State :=
  { state with files := state.files ++ [file] }.setDescriptor descriptor state.files.length

/-- The content of an open file. -/
def contentOf (state : State) (file : OpenFile) : Bytes :=
  match file.target with
  | .stream content => content
  | .file path =>
      match state.tree.node? path with
      | some (.file content) => ofRawBytes content
      | _ => []

/-- The content after bytes are written at a place, with zeros in between if it is beyond the end. -/
def overwrite (content bytes : Bytes) (position : Nat) : Bytes :=
  content.take position ++ List.replicate (position - content.length) (Char.ofNat 0) ++ bytes ++
    content.drop (position + bytes.length)

/-- Write bytes to a descriptor. Nothing is returned if it is closed. -/
def write? (state : State) (descriptor : Nat) (bytes : Bytes) : Option State :=
  match state.openFile? descriptor with
  | none => none
  | some (index, file) =>
      match file.target with
      | .stream content =>
          some { state with files := state.files.set index { file with target := .stream (content ++ bytes) } }
      | .file path =>
          let content := state.contentOf file
          let position := if file.atEnd then content.length else file.position
          let tree :=
            match state.tree.node? path with
            | some (.file _) => state.tree.put path (.file (rawBytes (overwrite content bytes position)))
            | _ => state.tree
          some { state with
            tree := tree
            files := state.files.set index { file with position := position + bytes.length } }

/-- Report a message with the name of the script and the line. -/
def report (state : State) (message : Bytes) : State :=
  let text := state.name ++ ": ".toList ++ digitsOf 10 state.line ++ ": ".toList ++ message ++ ['\n']
  (state.write? 2 text).getD state

/-- Write bytes of a command to the standard output, and report and say by the status if that was not
possible. -/
def writeOut (state : State) (command : String) (bytes : Bytes) : State :=
  match state.write? 1 bytes with
  | some after => after.withStatus 0
  | none => (state.report (command ++ ": " ++ command ++ ": I/O error").toList).withStatus 1

/-- The bytes of a descriptor up to a line end, whether there was one, and the state after them. -/
def readLine (state : State) (descriptor : Nat) : Bytes × Bool × State :=
  match state.openFile? descriptor with
  | none => ([], false, state)
  | some (index, file) =>
      let rest := (state.contentOf file).drop file.position
      let line := rest.takeWhile (· != '\n')
      let ended := line.length < rest.length
      let used := if ended then line.length + 1 else line.length
      (line, ended,
        { state with files := state.files.set index { file with position := file.position + used } })

/-- Open a file for a redirection, or give the message of why that is not possible. -/
def redirect (state : State) (descriptor : Nat) (kind : RedirectKind) (target : Bytes) :
    Except Bytes State :=
  let text := textOf target
  let cannot (verb : String) (error : FileError) : Bytes :=
    let reason :=
      match error with
      | .notFound => if verb == "create" then "Directory nonexistent" else "No such file"
      | .notDirectory => "Not a directory"
      | .isDirectory => "Is a directory"
      | _ => "Permission denied"
    "cannot ".toList ++ verb.toList ++ [' '] ++ target ++ ": ".toList ++ reason.toList
  let opened (tree : FileTree) (path : Path) (atEnd : Bool) : State :=
    { state with tree := tree }.openUnder descriptor ⟨.file path, 0, atEnd⟩
  match kind with
  | .duplicate =>
      if target == ['-'] then
        .ok (state.closeDescriptor descriptor)
      else if target.all Char.isDigit && !target.isEmpty then
        match state.descriptors.lookup (digitsValue target) with
        | some index => .ok (state.setDescriptor descriptor index)
        | none => .error (target ++ ": Bad file descriptor".toList)
      else
        .error ("Bad fd number".toList)
  | .input =>
      match state.tree.resolve text with
      | .error error => .error (cannot "open" error)
      | .ok path =>
          if (state.tree.node? path).isSome then
            .ok (opened state.tree path false)
          else
            .error (cannot "open" .notFound)
  | .output =>
      match state.tree.resolveTarget text with
      | .error error => .error (cannot "create" error)
      | .ok path =>
          match state.tree.writeAt path [] with
          | .error error => .error (cannot "create" error)
          | .ok tree => .ok (opened tree path false)
  | .append | .both =>
      match state.tree.resolveTarget text with
      | .error error => .error (cannot "create" error)
      | .ok path =>
          if (state.tree.node? path).isNone then
            match state.tree.writeAt path [] with
            | .error error => .error (cannot "create" error)
            | .ok tree => .ok (opened tree path (kind == .append))
          else if state.tree.node? path == some .directory then
            .error (cannot "create" .isDirectory)
          else
            .ok (opened state.tree path (kind == .append))

end State

end OpcodeTable.Script
