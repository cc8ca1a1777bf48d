import OpcodeTable.Script.Field

/-!
# Built-in commands

The commands that a script has by itself and that need no further evaluation. Each takes its arguments and
changes the state.
-/

namespace OpcodeTable.Script

/-- Report a message of a command, with a status. -/
def State.fail (state : State) (command : String) (message : Bytes) (status : Nat) : State :=
  (state.report (command.toList ++ ": ".toList ++ message)).withStatus status

/-- The number that a whole text spells, between blanks. -/
def wholeNumber? (text : Bytes) : Option Int :=
  let trimmed := ((text.reverse.dropWhile isBlankSeparator).reverse).dropWhile isBlankSeparator
  let (sign, digits) : Int × Bytes :=
    match trimmed with
    | '-' :: rest => (-1, rest)
    | '+' :: rest => (1, rest)
    | _ => (1, trimmed)
  if !digits.isEmpty && digits.all Char.isDigit then some (sign * digitsValue digits) else none

def unaryTest? (state : State) (operator : String) (operand : Bytes) : Option Bool :=
  let node? : Option FileNode :=
    match state.tree.resolve (textOf operand) with
    | .ok path => state.tree.node? path
    | .error _ => none
  match operator with
  | "-n" => some (!operand.isEmpty)
  | "-z" => some operand.isEmpty
  | "-e" => some node?.isSome
  | "-r" => some node?.isSome
  | "-w" => some node?.isSome
  | "-x" => some (node? == some .directory)
  | "-d" => some (node? == some .directory)
  | "-c" => some (node? == some .sink)
  | "-f" =>
      match node? with
      | some (.file _) => some true
      | _ => some false
  | "-s" =>
      match node? with
      | some (.file content) => some (!content.isEmpty)
      | some .directory => some true
      | _ => some false
  | "-b" | "-g" | "-h" | "-k" | "-L" | "-p" | "-S" | "-t" | "-u" => some false
  | _ => none

/-- A comparison of two numbers. -/
def numberTest? (operator : String) : Option (Int → Int → Bool) :=
  match operator with
  | "-eq" => some fun left right => decide (left = right)
  | "-ne" => some fun left right => decide (left ≠ right)
  | "-lt" => some fun left right => decide (left < right)
  | "-le" => some fun left right => decide (left ≤ right)
  | "-gt" => some fun left right => decide (right < left)
  | "-ge" => some fun left right => decide (right ≤ left)
  | _ => none

/-- A test of two texts: no value if the operator is none, else the value or the message of a fault. -/
def binaryTest? (operator : String) (left right : Bytes) : Option (Except Bytes Bool) :=
  match operator with
  | "=" => some (.ok (left == right))
  | "!=" => some (.ok (left != right))
  | "<" => some (.ok (decide (left < right)))
  | ">" => some (.ok (decide (right < left)))
  | _ =>
      match numberTest? operator with
      | none => none
      | some compare =>
          match wholeNumber? left, wholeNumber? right with
          | some leftNumber, some rightNumber => some (.ok (compare leftNumber rightNumber))
          | none, _ => some (.error ("Illegal number: ".toList ++ left))
          | _, none => some (.error ("Illegal number: ".toList ++ right))

/-- The values before and after the first of some texts. -/
def splitAtText (text : String) (values : List Bytes) : Option (List Bytes × List Bytes) :=
  let before := values.takeWhile (· != text.toList)
  if before.length < values.length then some (before, values.drop (before.length + 1)) else none

/-- The value of a test, or the message of a fault. -/
def testValue (fuel : Nat) (state : State) (values : List Bytes) : Except Bytes Bool :=
  match fuel with
  | 0 => .error "too many arguments".toList
  | fuel + 1 =>
      let opposite (values : List Bytes) : Except Bytes Bool :=
        match testValue fuel state values with
        | .ok value => .ok (!value)
        | .error message => .error message
      let joined : Except Bytes Bool :=
        match splitAtText "-o" values with
        | some (before, after) =>
            match testValue fuel state before, testValue fuel state after with
            | .ok left, .ok right => .ok (left || right)
            | .error message, _ => .error message
            | _, .error message => .error message
        | none =>
            match splitAtText "-a" values with
            | some (before, after) =>
                match testValue fuel state before, testValue fuel state after with
                | .ok left, .ok right => .ok (left && right)
                | .error message, _ => .error message
                | _, .error message => .error message
            | none =>
                match values with
                | first :: rest =>
                    if first == ['!'] then
                      opposite rest
                    else
                      .error (rest.headD [] ++ ": unexpected operator".toList)
                | [] => .ok false
      match values with
      | [] => .ok false
      | [only] => .ok (!only.isEmpty)
      | [operator, operand] =>
          if operator == ['!'] then
            opposite [operand]
          else
            match unaryTest? state (textOf operator) operand with
            | some value => .ok value
            | none => .error (operator ++ ": unexpected operator".toList)
      | [left, operator, right] =>
          match binaryTest? (textOf operator) left right with
          | some result => result
          | none =>
              if left == ['!'] then
                opposite [operator, right]
              else if left == ['('] && right == [')'] then
                testValue fuel state [operator]
              else
                joined
      | _ => joined

/-- Set the status by a test. -/
def runTest (command : String) (values : List Bytes) (state : State) : State :=
  match testValue (values.length + 2) state values with
  | .ok value => state.withStatus (if value then 0 else 1)
  | .error message => state.fail command message 2

/-- Write the arguments on a line. -/
def runEcho (values : List Bytes) (state : State) : State :=
  let (quiet, values) : Bool × List Bytes :=
    match values with
    | first :: rest => if first == "-n".toList then (true, rest) else (false, values)
    | [] => (false, [])
  let text := [' '].intercalate values
  let (written, stops) := writeEscapes (text.length + 1) text
  state.writeOut "echo" (if quiet || stops then written else written ++ ['\n'])

/-- Write the arguments by a format. -/
def runPrintf (values : List Bytes) (state : State) : State :=
  let values := if values.head? == some "--".toList then values.drop 1 else values
  match values with
  | [] => state.fail "printf" "usage: printf format [arg ...]".toList 2
  | format :: rest =>
      let printing := printArguments format rest
      let after := state.writeOut "printf" printing.written
      printing.faults.foldl
        (fun state fault => state.fail "printf" fault 1) after

/-- Take the backslashes off a line, and say whether the last one quotes the line end. -/
def unquoteLine : Bytes → List Marked × Bool
  | [] => ([], false)
  | c :: rest =>
      if c == backslash then
        match rest with
        | [] => ([], true)
        | d :: later =>
            let (marks, joins) := unquoteLine later
            (⟨d, true⟩ :: marks, joins)
      else
        let (marks, joins) := unquoteLine rest
        (⟨c, false⟩ :: marks, joins)

/-- Join a line with the next as long as it ends with a backslash, and keep which bytes were quoted so. -/
def readJoined (fuel : Nat) (raw : Bool) (seen : List Marked) (state : State) :
    List Marked × Bool × State :=
  match fuel with
  | 0 => (seen, false, state)
  | fuel + 1 =>
      let (line, ended, after) := state.readLine 0
      if raw then
        (seen ++ line.map fun c => ⟨c, false⟩, ended, after)
      else
        let (marks, joins) := unquoteLine line
        if joins && ended then
          readJoined fuel raw (seen ++ marks) after
        else
          (seen ++ marks, ended, after)

/-- The marks after separators that run together. -/
def dropBlankSeparators (separators : Bytes) (marks : List Marked) : List Marked :=
  marks.dropWhile fun mark => !mark.isQuoted && separators.contains mark.char && isBlankSeparator mark.char

/-- The marks without such separators at the end. -/
def trimBlankSeparators (separators : Bytes) (marks : List Marked) : List Marked :=
  (dropBlankSeparators separators marks.reverse).reverse

/-- Share marks out to names: each takes a field, the last takes all that is left. -/
def shareFields (separators : Bytes) : List Bytes → List Marked → List (Bytes × Bytes)
  | [], _ => []
  | [name], marks =>
      let trimmed := trimBlankSeparators separators marks
      let isSeparator (mark : Marked) : Bool := !mark.isQuoted && separators.contains mark.char
      let body := trimmed.dropLast
      let whole :=
        match trimmed.getLast? with
        | some last =>
            if isSeparator last && !body.any isSeparator then
              trimBlankSeparators separators body
            else
              trimmed
        | none => trimmed
      [(name, marksText whole)]
  | name :: rest, marks =>
      let isSeparator (mark : Marked) : Bool := !mark.isQuoted && separators.contains mark.char
      let field := marks.takeWhile fun mark => !isSeparator mark
      let after := dropBlankSeparators separators (marks.drop field.length)
      let after :=
        match after with
        | mark :: later =>
            if isSeparator mark && !isBlankSeparator mark.char then
              dropBlankSeparators separators later
            else
              after
        | [] => []
      (name, marksText field) :: shareFields separators rest after

/-- Read a line into variables. -/
def runRead (values : List Bytes) (state : State) : State :=
  let raw := values.head? == some "-r".toList
  let names := if raw then values.drop 1 else values
  if names.isEmpty then
    state.fail "read" "arg count".toList 2
  else
    let bound := state.files.foldl (fun bound file => bound + (state.contentOf file).length) 1
    let (marks, ended, after) := readJoined bound raw [] state
    let shared := shareFields after.separators names (dropBlankSeparators after.separators marks)
    let assigned := shared.foldl (fun state entry => state.setVariable entry.1 entry.2) after
    assigned.withStatus (if ended then 0 else 1)

def signalNumber? (name : Bytes) : Option Nat :=
  if !name.isEmpty && name.all Char.isDigit then
    some (digitsValue name)
  else
    [("HUP", 1), ("INT", 2), ("QUIT", 3), ("ILL", 4), ("TRAP", 5), ("ABRT", 6), ("BUS", 7), ("FPE", 8),
      ("KILL", 9), ("USR1", 10), ("SEGV", 11), ("USR2", 12), ("PIPE", 13), ("ALRM", 14), ("TERM", 15),
      ("CHLD", 17), ("CONT", 18), ("URG", 23), ("WINCH", 28)].lookup (textOf name)

/-- The signals that end no process. -/
def harmlessSignals : List Nat :=
  [0, 17, 18, 23, 28]

/-- Send a signal to processes, of which only the script's own is known. -/
def sendSignal (signal : Nat) (processes : List Bytes) (state : State) : State :=
  if processes.isEmpty then
    state.withStatus 2
  else if processes.contains processNumber then
    if harmlessSignals.contains signal then state.withStatus 0 else { state with flow := .killed }
  else
    state.fail "kill" "No such process".toList 1

/-- Send a signal. -/
def runKill (values : List Bytes) (state : State) : State :=
  match values with
  | [] => state.withStatus 2
  | first :: rest =>
      if first == "-s".toList then
        match rest with
        | name :: processes =>
            match signalNumber? name with
            | some signal => sendSignal signal processes state
            | none => state.fail "kill" ("invalid signal number or name: ".toList ++ name) 2
        | [] => state.withStatus 2
      else if first.head? == some '-' then
        match signalNumber? (first.drop 1) with
        | some signal => sendSignal signal rest state
        | none => state.fail "kill" ("invalid signal number or name: ".toList ++ first.drop 1) 2
      else
        sendSignal 15 values state

def pathBytes (path : Path) : Bytes :=
  if path.isEmpty then ['/'] else path.flatMap fun name => '/' :: bytesOf name

/-- Go to another directory. -/
def runCd (values : List Bytes) (state : State) : State :=
  let target := (values.head?).getD ((state.lookUp? "HOME".toList).getD [])
  match state.tree.resolve (textOf target) with
  | .ok path =>
      if state.tree.node? path == some .directory then
        ({ state with tree := { state.tree with current := path } }.setVariable "PWD".toList
          (pathBytes path)).withStatus 0
      else
        state.fail "cd" ("can't cd to ".toList ++ target) 2
  | .error _ => state.fail "cd" ("can't cd to ".toList ++ target) 2

/-- Set a variable for each argument that is an assignment. -/
def runAssignments (own : Bool) (values : List Bytes) (state : State) : State :=
  let assign (state : State) (value : Bytes) : State :=
    let name := value.takeWhile (· != '=')
    let state :=
      if own then { state with saved := (name, state.lookUp? name) :: state.saved } else state
    if value.contains '=' then state.setVariable name (value.drop (name.length + 1)) else state
  (values.foldl assign state).withStatus 0

/-- Take options and arguments. -/
def runSet (values : List Bytes) (state : State) : State :=
  match values with
  | [] => state.withStatus 0
  | first :: rest =>
      if first == "--".toList then
        { state with arguments := rest, status := 0 }
      else if first == "-e".toList then
        { state with endsOnFailure := true, status := 0 }
      else if first == "+e".toList then
        { state with endsOnFailure := false, status := 0 }
      else if first.head? == some '-' || first.head? == some '+' then
        state.withStatus 0
      else
        { state with arguments := values, status := 0 }

/-- Drop arguments from the front. -/
def runShift (values : List Bytes) (state : State) : State :=
  let count := ((values.head?).map digitsValue).getD 1
  if count ≤ state.arguments.length then
    { state with arguments := state.arguments.drop count, status := 0 }
  else
    { state.fail "shift" "can't shift that many".toList 2 with flow := .ended }

/-- The count or status that a command is given: decimal digits only. -/
def plainNumber? (text : Bytes) : Option Nat :=
  if !text.isEmpty && text.all Char.isDigit then some (digitsValue text) else none

/-- Leave the script, a function or loops, with a status or a count. Outside loops there is none to
leave. -/
def runLeaving (command : String) (values : List Bytes) (state : State) : State :=
  let number? : Option Nat := values.head?.bind plainNumber?
  match values, number? with
  | value :: _, none =>
      { state.fail command ("Illegal number: ".toList ++ value) 2 with flow := .ended }
  | _, _ =>
      match command with
      | "exit" => { state with status := (number?.getD state.status) % 256, flow := .ended }
      | "return" => { state with status := (number?.getD state.status) % 256, flow := .leaveFunction }
      | _ =>
          let count := min (number?.getD 1) state.loops
          if count == 0 then
            state.withStatus 0
          else if command == "break" then
            { state with status := 0, flow := .leaveLoop count }
          else
            { state with status := 0, flow := .nextRound count }

/-- The commands that are built in and need no evaluation, by name. -/
def builtin? (command : String) : Option (List Bytes → State → State) :=
  match command with
  | ":" | "true" => some fun _ state => state.withStatus 0
  | "false" => some fun _ state => state.withStatus 1
  | "echo" => some runEcho
  | "printf" => some runPrintf
  | "read" => some runRead
  | "test" => some (runTest "test")
  | "[" => some fun values state =>
      if values.getLast? == some [']'] then
        runTest "[" values.dropLast state
      else
        state.fail "[" "missing ]".toList 2
  | "exit" | "return" | "break" | "continue" => some (runLeaving command)
  | "kill" => some runKill
  | "cd" => some runCd
  | "pwd" => some fun _ state => state.writeOut "pwd" (pathBytes state.tree.current ++ ['\n'])
  | "set" => some runSet
  | "shift" => some runShift
  | "export" | "readonly" => some (runAssignments false)
  | "local" => some (runAssignments true)
  | "unset" => some fun values state =>
      (values.foldl State.unsetVariable state).withStatus 0
  | "trap" | "umask" | "wait" => some fun _ state => state.withStatus 0
  | _ => none

/-- The built-in commands whose faults end the script. -/
def specialBuiltins : List String :=
  [":", "break", "continue", "eval", "exec", "exit", "export", "readonly", "return", "set", "shift", "trap",
    "unset"]

end OpcodeTable.Script
