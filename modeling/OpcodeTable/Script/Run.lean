import OpcodeTable.Script.Arithmetic
import OpcodeTable.Script.Builtin
import OpcodeTable.Script.Grammar

/-!
# Running scripts

Commands change the state. Once the flow has left, every later command leaves the state as it is. All
functions here take one bound on their depth; a script that reaches it is stalled.
-/

namespace OpcodeTable.Script

/-- Keep what a copy of the state changed for everyone: the files, and how far they were read. A signal ends
the script as well as its copy. -/
def State.leaveCopy (state copy : State) : State :=
  { state with
    tree := { copy.tree with current := state.tree.current }
    files := copy.files
    status := copy.status
    flow :=
      match copy.flow with
      | .killed => .killed
      | .stalled => .stalled
      | _ => state.flow }

/-- The flow after a loop whose body left with it, and whether the loop goes on. -/
def Flow.afterRound : Flow → Flow × Bool
  | .running => (.running, true)
  | .leaveLoop count => (if count ≤ 1 then .running else .leaveLoop (count - 1), false)
  | .nextRound count => if count ≤ 1 then (.running, true) else (.nextRound (count - 1), false)
  | flow => (flow, false)

/-- The text without the line ends at its end. -/
def dropLineEnds (text : Bytes) : Bytes :=
  (text.reverse.dropWhile (· == '\n')).reverse

/-- The script ends if a command failed and its status was not tested. -/
def State.endIfFailed (state : State) (tested : Bool) : State :=
  if state.endsOnFailure && !tested && state.status != 0 && state.isRunning then
    { state with flow := .ended }
  else
    state

/-- Report a fault that ends the script. -/
def State.abort (state : State) (message : Bytes) : State :=
  { state.report message with status := 2, flow := .ended }

/-- Take back the variables that a function made its own. -/
def State.restoreSaved (state : State) (saved : List (Bytes × Option Bytes)) : State :=
  { state.saved.foldl (fun state entry => state.restoreVariable entry.1 entry.2) state with saved := saved }

/-- Report a command that is not there or cannot be run. -/
def State.refuseCommand (state : State) (opening : String) (name : Bytes) : State :=
  let isThere := name.contains '/' && state.tree.hasPath (textOf name)
  let reason := if isThere then ": Permission denied" else ": not found"
  (state.report (opening.toList ++ name ++ reason.toList)).withStatus (if isThere then 126 else 127)

mutual

/-- The output of a script that runs on a copy of the state. -/
def scriptOutput (fuel : Nat) (script : Bytes) (state : State) : Bytes × State :=
  match fuel with
  | 0 => ([], { state with flow := .stalled })
  | fuel + 1 =>
      let index := state.files.length
      let copy := runText fuel script (state.openUnder 1 ⟨.stream [], 0, false⟩)
      let output :=
        match copy.files[index]? with
        | some ⟨.stream content, _, _⟩ => content
        | _ => []
      let after := state.leaveCopy copy
      (dropLineEnds output, { after with outputStatus := some after.status })

/-- The pieces of a part of a word. -/
def expandPart (fuel : Nat) (part : Part) (state : State) : List Piece × State :=
  match fuel with
  | 0 => ([], { state with flow := .stalled })
  | fuel + 1 =>
      match part with
      | .plain c => ([.char ⟨c, false⟩], state)
      | .quoted text => (.present :: text.map fun c => .char ⟨c, true⟩, state)
      | .output script inQuotes =>
          let (output, state) := scriptOutput fuel script state
          (valuePieces state.separators inQuotes output, state)
      | .arithmetic expression inQuotes =>
          let (pieces, state) := expandPieces fuel expression state
          let value (name : Bytes) : Int := ((state.parameter? name).bind wholeNumber?).getD 0
          match arithmeticValue? value (marksText (joinPieces pieces)) with
          | some result =>
              let digits := (if result < 0 then ['-'] else []) ++ digitsOf 10 result.natAbs
              (valuePieces state.separators inQuotes digits, state)
          | none => ([], state.abort "arithmetic expression: expecting primary".toList)
      | .parameter name use strict word inQuotes =>
          let value? := state.parameter? name
          let usable? := value?.filter fun value => !strict || !value.isEmpty
          let pieces (value : Bytes) : List Piece := valuePieces state.separators inQuotes value
          match use with
          | .length => (pieces (digitsOf 10 (value?.getD []).length), state)
          | .value =>
              if name == ['@'] || (name == ['*'] && !inQuotes) then
                ([Piece.cut].intercalate (state.arguments.map pieces), state)
              else
                (pieces (value?.getD []), state)
          | .default =>
              match usable? with
              | some value => (pieces value, state)
              | none => expandPieces fuel word state
          | .assign =>
              match usable? with
              | some value => (pieces value, state)
              | none =>
                  let (found, state) := expandPieces fuel word state
                  let text := marksText (joinPieces found)
                  (valuePieces state.separators inQuotes text, state.setVariable name text)
          | .alternative =>
              match usable? with
              | some _ => expandPieces fuel word state
              | none => ([], state)
          | .require =>
              match usable? with
              | some value => (pieces value, state)
              | none =>
                  let (found, state) := expandPieces fuel word state
                  let text := marksText (joinPieces found)
                  let reason := if text.isEmpty then "parameter not set".toList else text
                  ([], state.abort (name ++ ": ".toList ++ reason))
          | .dropStart longest =>
              let (pattern, state) := expandPieces fuel word state
              (pieces (dropMatchedStart (joinPieces pattern) longest (value?.getD [])), state)
          | .dropEnd longest =>
              let (pattern, state) := expandPieces fuel word state
              (pieces (dropMatchedEnd (joinPieces pattern) longest (value?.getD [])), state)

def expandPieces (fuel : Nat) (word : Word) (state : State) : List Piece × State :=
  match fuel with
  | 0 => ([], { state with flow := .stalled })
  | fuel + 1 =>
      match word with
      | [] => ([], state)
      | part :: rest =>
          let (first, state) := expandPart fuel part state
          let (others, state) := expandPieces fuel rest state
          (first ++ others, state)

def expandFields (fuel : Nat) (words : List Word) (state : State) : List Bytes × State :=
  match fuel with
  | 0 => ([], { state with flow := .stalled })
  | fuel + 1 =>
      match words with
      | [] => ([], state)
      | word :: rest =>
          let (pieces, state) := expandPieces fuel word state
          let fields := (cutFields pieces).flatMap (expandPath state.tree)
          let (others, state) := expandFields fuel rest state
          (fields ++ others, state)

/-- Make assignments one after the other. -/
def assignAll (fuel : Nat) (assignments : List (Bytes × Word)) (state : State) : State :=
  match fuel with
  | 0 => { state with flow := .stalled }
  | fuel + 1 =>
      match assignments with
      | [] => state
      | (name, word) :: rest =>
          let (pieces, state) := expandPieces fuel word state
          assignAll fuel rest (state.setVariable name (marksText (joinPieces pieces)))

/-- Open the files of redirections, up to the first that cannot be opened. -/
def redirectAll (fuel : Nat) (redirects : List Redirect) (state : State) : State × Bool :=
  match fuel with
  | 0 => ({ state with flow := .stalled }, false)
  | fuel + 1 =>
      match redirects with
      | [] => (state, true)
      | redirect :: rest =>
          let (pieces, state) := expandPieces fuel redirect.target state
          match state.redirect redirect.descriptor redirect.kind (marksText (joinPieces pieces)) with
          | .ok state => redirectAll fuel rest state
          | .error message => ((state.report message).withStatus 2, false)

/-- Run a command by its name and arguments. -/
def runNamed (fuel : Nat) (name : Bytes) (values : List Bytes) (tested : Bool) (state : State) : State :=
  match fuel with
  | 0 => { state with flow := .stalled }
  | fuel + 1 =>
      match state.functions.lookup name with
      | some body =>
          let outer := state.arguments
          let saved := state.saved
          let after := runCommand fuel body tested { state with arguments := values, saved := [], loops := 0 }
          let after := (after.restoreSaved saved)
          { after with
            arguments := outer
            loops := state.loops
            flow := if after.flow == .leaveFunction then .running else after.flow }
      | none =>
          match textOf name with
          | "eval" => runText fuel ([' '].intercalate values) { state with status := 0 }
          | "command" | "exec" =>
              match values with
              | [] => state.withStatus 0
              | first :: rest =>
                  if name == "command".toList then
                    runNamed fuel first rest tested state
                  else if (builtin? (textOf first)).isSome then
                    let after := runNamed fuel first rest tested state
                    if after.isRunning then { after with flow := .ended } else after
                  else
                    { state.refuseCommand "exec: " first with flow := .ended }
          | command =>
              match builtin? command with
              | some run => run values state
              | none => state.refuseCommand "" name

def runSimple (fuel : Nat) (assignments : List (Bytes × Word)) (words : List Word)
    (redirects : List Redirect) (tested : Bool) (state : State) : State :=
  match fuel with
  | 0 => { state with flow := .stalled }
  | fuel + 1 =>
      let (fields, state) := expandFields fuel words { state with outputStatus := none }
      if !state.isRunning then
        state
      else
        match fields with
        | [] =>
            let before := state.descriptors
            let (state, opened) := redirectAll fuel redirects state
            let state := { state with descriptors := before }
            if opened then
              let after := assignAll fuel assignments state
              if after.isRunning then after.withStatus (after.outputStatus.getD 0) else after
            else
              state
        | name :: values =>
            let before := state.descriptors
            let command := textOf name
            let isSpecial := specialBuiltins.contains command && (state.functions.lookup name).isNone
            let (state, opened) := redirectAll fuel redirects state
            if !opened then
              let state := { state with descriptors := before }
              if isSpecial then { state with flow := .ended } else state
            else
              let olds := assignments.map fun entry => (entry.1, state.lookUp? entry.1)
              let state := assignAll fuel assignments state
              let after := runNamed fuel name values tested state
              let after :=
                if isSpecial then after
                else olds.foldl (fun state entry => state.restoreVariable entry.1 entry.2) after
              if command == "exec" && values.isEmpty then after else { after with descriptors := before }

/-- Run the stages of a pipeline, each on a copy of the state and on the output of the one before. -/
def runStages (fuel : Nat) (stages : List Command) (input? : Option Bytes) (state : State) : State :=
  match fuel with
  | 0 => { state with flow := .stalled }
  | fuel + 1 =>
      match stages with
      | [] => state
      | stage :: rest =>
          let fed :=
            match input? with
            | some input => state.openUnder 0 ⟨.stream input, 0, false⟩
            | none => state
          if rest.isEmpty then
            state.leaveCopy (runCommand fuel stage false fed)
          else
            let index := fed.files.length
            let copy := runCommand fuel stage false (fed.openUnder 1 ⟨.stream [], 0, false⟩)
            let output :=
              match copy.files[index]? with
              | some ⟨.stream content, _, _⟩ => content
              | _ => []
            let after := state.leaveCopy copy
            if after.isRunning then runStages fuel rest (some output) after else after

/-- Repeat a body while a test succeeds, or until it does. -/
def runLoop (fuel : Nat) (untilTest : Bool) (test body : Command) (tested : Bool) (last : Nat)
    (state : State) : State :=
  match fuel with
  | 0 => { state with flow := .stalled }
  | fuel + 1 =>
      let checked := runCommand fuel test true state
      let (flow, goesOn) := checked.flow.afterRound
      if !goesOn || !checked.isRunning then
        { checked with flow := flow }
      else if (checked.status == 0) == untilTest then
        checked.withStatus last
      else
        let after := runCommand fuel body tested checked
        let (flow, goesOn) := after.flow.afterRound
        let after := { after with flow := flow }
        if goesOn then runLoop fuel untilTest test body tested after.status after else after

/-- Run a body for each value. -/
def runEach (fuel : Nat) (name : Bytes) (values : List Bytes) (body : Command) (tested : Bool)
    (state : State) : State :=
  match fuel with
  | 0 => { state with flow := .stalled }
  | fuel + 1 =>
      match values with
      | [] => state
      | value :: rest =>
          let after := runCommand fuel body tested (state.setVariable name value)
          let (flow, goesOn) := after.flow.afterRound
          let after := { after with flow := flow }
          if goesOn then runEach fuel name rest body tested after else after

/-- One of some patterns matches a text. -/
def matchesAny (fuel : Nat) (patterns : List Word) (text : Bytes) (state : State) : Bool × State :=
  match fuel with
  | 0 => (false, { state with flow := .stalled })
  | fuel + 1 =>
      match patterns with
      | [] => (false, state)
      | pattern :: rest =>
          let (pieces, state) := expandPieces fuel pattern state
          if matchesPattern (joinPieces pieces) text then
            (true, state)
          else
            matchesAny fuel rest text state

/-- Run the first branch with a pattern that matches. -/
def runBranches (fuel : Nat) (branches : List (List Word × Command)) (text : Bytes) (tested : Bool)
    (state : State) : State :=
  match fuel with
  | 0 => { state with flow := .stalled }
  | fuel + 1 =>
      match branches with
      | [] => state
      | (patterns, body) :: rest =>
          let (found, state) := matchesAny fuel patterns text state
          if found then runCommand fuel body tested state else runBranches fuel rest text tested state

/-- Run a command. Its failure does not end the script if it is tested. -/
def runCommand (fuel : Nat) (command : Command) (tested : Bool) (state : State) : State :=
  match fuel with
  | 0 => { state with flow := .stalled }
  | fuel + 1 =>
      if !state.isRunning then
        state
      else
        match command with
        | .nothing => state
        | .simple line assignments words redirects =>
            (runSimple fuel assignments words redirects tested { state with line := line }).endIfFailed tested
        | .sequence first second =>
            runCommand fuel second tested (runCommand fuel first tested state)
        | .both first second =>
            let after := runCommand fuel first true state
            if after.status == 0 then runCommand fuel second tested after else after
        | .either first second =>
            let after := runCommand fuel first true state
            if after.status == 0 then after else runCommand fuel second tested after
        | .negate inner =>
            let after := runCommand fuel inner true state
            if after.isRunning then after.withStatus (if after.status == 0 then 1 else 0) else after
        | .pipeline stages => (runStages fuel stages none state).endIfFailed tested
        | .subshell body => (state.leaveCopy (runCommand fuel body tested state)).endIfFailed tested
        | .background inner => (state.leaveCopy (runCommand fuel inner true state)).withStatus 0
        | .conditional test yes no =>
            let after := runCommand fuel test true state
            if !after.isRunning then
              after
            else if after.status == 0 then
              runCommand fuel yes tested after
            else
              runCommand fuel no tested (after.withStatus 0)
        | .loop untilTest test body =>
            let after := runLoop fuel untilTest test body tested 0 { state with loops := state.loops + 1 }
            { after with loops := state.loops }
        | .iterate name words? body =>
            match words? with
            | none =>
                let inner := { state with loops := state.loops + 1, status := 0 }
                { runEach fuel name state.arguments body tested inner with loops := state.loops }
            | some words =>
                let (values, state) := expandFields fuel words state
                if state.isRunning then
                  let inner := { state with loops := state.loops + 1, status := 0 }
                  { runEach fuel name values body tested inner with loops := state.loops }
                else
                  state
        | .choose subject branches =>
            let (pieces, state) := expandPieces fuel subject state
            if state.isRunning then
              runBranches fuel branches (marksText (joinPieces pieces)) tested (state.withStatus 0)
            else
              state
        | .define name body =>
            { state with
              functions := (name, body) :: state.functions.filter fun entry => entry.1 ≠ name
              status := 0 }
        | .redirected body redirects =>
            let before := state.descriptors
            let (state, opened) := redirectAll fuel redirects state
            let after := if opened then runCommand fuel body tested state else state
            { after with descriptors := before }

def runLines (fuel : Nat) (commands : List Command) (state : State) : State :=
  match fuel with
  | 0 => { state with flow := .stalled }
  | fuel + 1 =>
      match commands with
      | [] => state
      | command :: rest => runLines fuel rest (runCommand fuel command false state)

def runText (fuel : Nat) (script : Bytes) (state : State) : State :=
  match fuel with
  | 0 => { state with flow := .stalled }
  | fuel + 1 =>
      let (commands, error?) := readScript script
      let after := runLines fuel commands state
      match error? with
      | none => after
      | some error =>
          if after.isRunning then
            { after with line := if error.line == 0 then after.line else error.line }.abort
              ("Syntax error: ".toList ++ error.found.toList)
          else
            after

end

def depthBound : Nat := 100000

end OpcodeTable.Script
