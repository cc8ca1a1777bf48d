import OpcodeTable.ExternalAssembler
import OpcodeTable.Script.Run

/-!
# Launching scripts

A launcher whose programs are scripts. It is one launcher among all that the theory is about, and no part of
the model. The command interpreter itself takes a script as an argument or in a
file. Any other program is looked up by name and must open with the line that names the interpreter.
-/

namespace OpcodeTable.Script

def interpreterPath : String := "/bin/sh"

/-- The line that opens a script. -/
def interpreterLine : Bytes := "#!/bin/sh".toList

/-- The programs that are known and the variables that they see. -/
structure Surroundings where
  directory : String
  programs : List (String × String) := []
  bindings : List (String × String) := []
deriving DecidableEq, Repr

/-- Run a script with a name and arguments. -/
def runProgram (bindings : List (String × String)) (script name : Bytes) (arguments : List Bytes)
    (tree : FileTree) : ProgramResult × FileTree :=
  let start : State :=
    { tree := tree
      name := name
      arguments := arguments
      bindings := bindings.map fun entry => (bytesOf entry.1, bytesOf entry.2)
      files := [⟨.stream [], 0, false⟩, ⟨.stream [], 0, false⟩, ⟨.stream [], 0, false⟩]
      descriptors := [(0, 0), (1, 1), (2, 2)] }
  let final := runText depthBound script start
  let errors :=
    match final.files[2]? with
    | some ⟨.stream content, _, _⟩ => rawBytes content
    | _ => []
  let status : ExitStatus :=
    match final.flow with
    | .killed | .stalled => .signal
    | _ => .code final.status
  (⟨status, errors⟩, { final.tree with current := tree.current })

def runInterpreter (bindings : List (String × String)) (arguments : List String) (tree : FileTree) :
    ProgramResult × FileTree :=
  let interpreter := bytesOf interpreterPath
  let complain (message : String) (status : Nat) : ProgramResult × FileTree :=
    (⟨.code status, Text.utf8 (interpreterPath ++ ": 0: " ++ message ++ "\n")⟩, tree)
  match arguments with
  | [] => runProgram bindings [] interpreter [] tree
  | "-c" :: [] => complain "-c requires an argument" 2
  | "-c" :: script :: rest =>
      match rest with
      | [] => runProgram bindings (bytesOf script) interpreter [] tree
      | name :: values => runProgram bindings (bytesOf script) (bytesOf name) (values.map bytesOf) tree
  | file :: rest =>
      if file.toList.head? == some '-' then
        complain ("Illegal option " ++ String.ofList (file.toList.take 2)) 2
      else
        match tree.read file with
        | .ok content => runProgram bindings (ofRawBytes content) (bytesOf file) (rest.map bytesOf) tree
        | .error _ => complain ("cannot open " ++ file ++ ": No such file") 2

def launcher (surroundings : Surroundings) : Launcher := fun program arguments tree =>
  if program == interpreterPath then
    let (result, tree) := runInterpreter surroundings.bindings arguments tree
    (.ok result, tree)
  else if program.toList.contains '/' then
    match tree.resolve program with
    | .error error => (.error error.message, tree)
    | .ok path =>
        (.error (if (tree.node? path).isSome then FileError.notPermitted.message
          else FileError.notFound.message), tree)
  else
    match surroundings.programs.lookup program with
    | none => (.error FileError.notFound.message, tree)
    | some script =>
        let bytes := bytesOf script
        if interpreterLine.isPrefixOf bytes then
          let name := bytesOf (joinPath surroundings.directory program)
          let (result, tree) :=
            runProgram surroundings.bindings bytes name (arguments.map bytesOf) tree
          (.ok result, tree)
        else
          (.error FileError.notExecutable.message, tree)

end OpcodeTable.Script
