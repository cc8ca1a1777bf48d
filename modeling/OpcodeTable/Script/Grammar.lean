import OpcodeTable.Script.Token

/-!
# The grammar of scripts

Tokens become commands. A script is a list of lines of commands; each line is read before it runs, so a
fault in a later line leaves the earlier lines as they are. Every reader takes the tokens that are left
and a bound on its depth, and returns what it read with the tokens after it.
-/

namespace OpcodeTable.Script

/-- Why a script cannot be read, at a line. -/
structure GrammarError where
  line : Nat
  found : String
deriving DecidableEq, Repr

/-- Tokens with their lines. -/
abbrev Tokens := List (Nat × Token)

/-- What a reader returns. -/
abbrev Reading (α : Type) := Except GrammarError (α × Tokens)

/-- The words with a meaning of their own. -/
def reservedWords : List String :=
  ["!", "case", "do", "done", "elif", "else", "esac", "fi", "for", "if", "then", "until", "while",
    String.singleton leftBrace, String.singleton rightBrace]

def shownWord (word : Word) : String :=
  match (Word.plainText? word).map String.ofList with
  | some text => if reservedWords.contains text then "\"" ++ text ++ "\"" else "word"
  | none => "word"

/-- The error at the first of the tokens, where something else was expected. -/
def unexpectedFor {α : Type} (expected : String) (tokens : Tokens) : Except GrammarError α :=
  let suffix := if expected.isEmpty then "" else " (expecting " ++ expected ++ ")"
  match tokens with
  | [] => .error ⟨0, "end of file unexpected" ++ suffix⟩
  | (line, .unclosed reason) :: _ => .error ⟨line, reason⟩
  | (line, .lineEnd) :: _ => .error ⟨line, "newline unexpected" ++ suffix⟩
  | (line, .operator text) :: _ =>
      .error ⟨line, "\"" ++ String.ofList text ++ "\" unexpected" ++ suffix⟩
  | (line, .word word) :: _ => .error ⟨line, shownWord word ++ " unexpected" ++ suffix⟩
  | (line, .descriptor _) :: _ => .error ⟨line, "word unexpected" ++ suffix⟩

/-- The error at the first of the tokens. -/
def unexpected {α : Type} (tokens : Tokens) : Except GrammarError α :=
  unexpectedFor "" tokens

/-- A text in quotes, as something expected. -/
def expectedText (text : String) : String :=
  "\"" ++ text ++ "\""

/-- The plain word at the start of the tokens. -/
def headWord? : Tokens → Option String
  | (_, .word word) :: _ => (Word.plainText? word).map String.ofList
  | _ => none

/-- The operator at the start of the tokens. -/
def headOperator? : Tokens → Option String
  | (_, .operator text) :: _ => some (String.ofList text)
  | _ => none

/-- The tokens after line ends. -/
def skipLineEnds : Tokens → Tokens
  | (_, .lineEnd) :: rest => skipLineEnds rest
  | tokens => tokens

/-- The tokens after a reserved word. -/
def expectWord (text : String) (tokens : Tokens) : Except GrammarError Tokens :=
  if headWord? tokens == some text then .ok (tokens.drop 1) else unexpectedFor (expectedText text) tokens

/-- The tokens after an operator. -/
def expectOperator (text : String) (tokens : Tokens) : Except GrammarError Tokens :=
  if headOperator? tokens == some text then
    .ok (tokens.drop 1)
  else
    unexpectedFor (expectedText text) tokens

/-- The words that end a list of commands. -/
def closingWords : List String :=
  ["then", "else", "elif", "fi", "do", "done", "esac", String.singleton rightBrace]

/-- A list of commands ends before the tokens. -/
def endsList (tokens : Tokens) : Bool :=
  match tokens with
  | [] => true
  | _ =>
      (headWord? tokens).any closingWords.contains ||
        (headOperator? tokens).any fun text => text == ")" || text == ";;"

/-- The redirection that an operator asks for, with the descriptor that it has by itself. -/
def redirectKind? : String → Option (RedirectKind × Nat)
  | "<" => some (.input, 0)
  | ">" => some (.output, 1)
  | ">|" => some (.output, 1)
  | ">>" => some (.append, 1)
  | "<>" => some (.both, 0)
  | ">&" => some (.duplicate, 1)
  | "<&" => some (.duplicate, 0)
  | _ => none

/-- The redirection at the start of the tokens, if there is one. -/
def readRedirect (tokens : Tokens) : Except GrammarError (Option (Redirect × Tokens)) :=
  let (number?, after) : Option Nat × Tokens :=
    match tokens with
    | (_, .descriptor number) :: rest => (some number, rest)
    | _ => (none, tokens)
  match (headOperator? after).bind redirectKind? with
  | none => .ok none
  | some (kind, standard) =>
      match after.drop 1 with
      | (_, .word target) :: rest => .ok (some (⟨number?.getD standard, kind, target⟩, rest))
      | other => unexpected other

/-- The redirections at the start of the tokens. -/
def readRedirects (fuel : Nat) (seen : List Redirect) (tokens : Tokens) : Reading (List Redirect) :=
  match fuel with
  | 0 => .ok (seen.reverse, tokens)
  | fuel + 1 =>
      match readRedirect tokens with
      | .error error => .error error
      | .ok none => .ok (seen.reverse, tokens)
      | .ok (some (redirect, rest)) => readRedirects fuel (redirect :: seen) rest

/-- The plain characters at the start of a word. -/
def plainStart : Word → Bytes
  | .plain c :: rest => c :: plainStart rest
  | _ => []

/-- The assignment that a word spells. -/
def assignment? (word : Word) : Option (Bytes × Word) :=
  let start := plainStart word
  let name := start.takeWhile (· != '=')
  if start.contains '=' && isVariableName name then
    some (name, word.drop (name.length + 1))
  else
    none

/-- The assignments, words and redirections of a simple command. -/
def readSimple (fuel : Nat) (line : Nat) (assignments : List (Bytes × Word)) (words : List Word)
    (redirects : List Redirect) (tokens : Tokens) : Reading Command :=
  match fuel with
  | 0 => .ok (.simple line assignments.reverse words.reverse redirects.reverse, tokens)
  | fuel + 1 =>
      match readRedirect tokens with
      | .error error => .error error
      | .ok (some (redirect, rest)) =>
          readSimple fuel line assignments words (redirect :: redirects) rest
      | .ok none =>
          match tokens with
          | (_, .word word) :: rest =>
              match (if words.isEmpty then assignment? word else none) with
              | some assignment =>
                  readSimple fuel line (assignment :: assignments) words redirects rest
              | none => readSimple fuel line assignments (word :: words) redirects rest
          | (_, .unclosed _) :: _ => unexpected tokens
          | _ =>
              if assignments.isEmpty && words.isEmpty && redirects.isEmpty then
                unexpected tokens
              else
                .ok (.simple line assignments.reverse words.reverse redirects.reverse, tokens)

/-- The tokens go on with a parenthesis that opens a definition and is not closed at once. -/
def opensDefinition : Tokens → Bool
  | (_, .word _) :: (_, .operator text) :: _ => text == ['(']
  | _ => false

/-- The words of a loop up to the end of its line. -/
def readLoopWords (seen : List Word) : Tokens → List Word × Tokens
  | (_, .word word) :: rest => readLoopWords (word :: seen) rest
  | tokens => (seen.reverse, tokens)

/-- The patterns of a branch up to the closing parenthesis. -/
def readPatterns (seen : List Word) : Tokens → Reading (List Word)
  | (_, .word word) :: (_, .operator text) :: rest =>
      if text == ['|'] then
        readPatterns (word :: seen) rest
      else if text == [')'] then
        .ok ((word :: seen).reverse, rest)
      else
        unexpectedFor (expectedText ")") ((0, .operator text) :: rest)
  | (_, .word _) :: rest => unexpectedFor (expectedText ")") rest
  | tokens => unexpectedFor (expectedText ")") tokens

/-- The line of the first of the tokens. -/
def headLine (tokens : Tokens) : Nat :=
  match tokens with
  | (line, _) :: _ => line
  | [] => 0

/-- The tokens open the definition of a function. -/
def definedName? : Tokens → Option (Bytes × Tokens)
  | (_, .word word) :: (_, .operator opening) :: (_, .operator closing) :: rest =>
      match Word.plainText? word with
      | some name =>
          if opening == ['('] && closing == [')'] && isVariableName name then some (name, rest) else none
      | none => none
  | _ => none

mutual

/-- Commands joined by line ends and separators, up to a word or operator that ends them. -/
def readList (fuel : Nat) (tokens : Tokens) : Reading Command :=
  match fuel with
  | 0 => unexpected tokens
  | fuel + 1 =>
      let tokens := skipLineEnds tokens
      if endsList tokens then
        .ok (.nothing, tokens)
      else
        match readChain fuel tokens with
        | .error error => .error error
        | .ok (first, after) =>
            match after with
            | (_, .lineEnd) :: rest => joinList fuel first rest
            | (_, .operator text) :: rest =>
                if text == [';'] then
                  joinList fuel first rest
                else if text == ['&'] then
                  joinList fuel (.background first) rest
                else if endsList after then
                  .ok (first, after)
                else
                  unexpected after
            | _ => if endsList after then .ok (first, after) else unexpected after

/-- A command followed by the list after it. -/
def joinList (fuel : Nat) (first : Command) (tokens : Tokens) : Reading Command :=
  match fuel with
  | 0 => unexpected tokens
  | fuel + 1 =>
      match readList fuel tokens with
      | .error error => .error error
      | .ok (.nothing, rest) => .ok (first, rest)
      | .ok (second, rest) => .ok (.sequence first second, rest)

/-- A list in which there must be a command, before a text. -/
def readBody (fuel : Nat) (closing : String) (tokens : Tokens) : Reading Command :=
  match fuel with
  | 0 => unexpected tokens
  | fuel + 1 =>
      match readList fuel tokens with
      | .ok (.nothing, rest) => if rest.isEmpty then unexpectedFor (expectedText closing) rest else unexpected rest
      | reading => reading

/-- Pipelines joined by the operators for both and either, from the left. -/
def readChain (fuel : Nat) (tokens : Tokens) : Reading Command :=
  match fuel with
  | 0 => unexpected tokens
  | fuel + 1 =>
      match readPipeline fuel tokens with
      | .error error => .error error
      | .ok (first, rest) => extendChain fuel first rest

/-- A chain that goes on after its first part. -/
def extendChain (fuel : Nat) (first : Command) (tokens : Tokens) : Reading Command :=
  match fuel with
  | 0 => unexpected tokens
  | fuel + 1 =>
      match headOperator? tokens with
      | some "&&" =>
          match readPipeline fuel (skipLineEnds (tokens.drop 1)) with
          | .error error => .error error
          | .ok (second, rest) => extendChain fuel (.both first second) rest
      | some "||" =>
          match readPipeline fuel (skipLineEnds (tokens.drop 1)) with
          | .error error => .error error
          | .ok (second, rest) => extendChain fuel (.either first second) rest
      | _ => .ok (first, tokens)

/-- Commands that pass their output on, possibly with the opposite status. -/
def readPipeline (fuel : Nat) (tokens : Tokens) : Reading Command :=
  match fuel with
  | 0 => unexpected tokens
  | fuel + 1 =>
      if headWord? tokens == some "!" then
        match readPipeline fuel (tokens.drop 1) with
        | .error error => .error error
        | .ok (command, rest) => .ok (.negate command, rest)
      else
        match readCommand fuel tokens with
        | .error error => .error error
        | .ok (first, rest) => extendPipeline fuel [first] rest

/-- A pipeline that goes on after the stages that were read, which come in reverse. -/
def extendPipeline (fuel : Nat) (stages : List Command) (tokens : Tokens) : Reading Command :=
  match fuel with
  | 0 => unexpected tokens
  | fuel + 1 =>
      if headOperator? tokens == some "|" then
        match readCommand fuel (skipLineEnds (tokens.drop 1)) with
        | .error error => .error error
        | .ok (stage, rest) => extendPipeline fuel (stage :: stages) rest
      else
        match stages with
        | [only] => .ok (only, tokens)
        | _ => .ok (.pipeline stages.reverse, tokens)

/-- The tests and branches of a choice by status. -/
def readConditional (fuel : Nat) (tokens : Tokens) : Except GrammarError (Command × Tokens) :=
  match fuel with
  | 0 => unexpected tokens
  | fuel + 1 => do
      let (test, tokens) ← readBody fuel "then" tokens
      let tokens ← expectWord "then" tokens
      let (yes, tokens) ← readBody fuel "fi" tokens
      match headWord? tokens with
      | some "elif" =>
          let (no, tokens) ← readConditional fuel (tokens.drop 1)
          return (.conditional test yes no, tokens)
      | some "else" =>
          let (no, tokens) ← readBody fuel "fi" (tokens.drop 1)
          let tokens ← expectWord "fi" tokens
          return (.conditional test yes no, tokens)
      | _ =>
          let tokens ← expectWord "fi" tokens
          return (.conditional test yes .nothing, tokens)

/-- The branches of a choice by pattern. -/
def readBranches (fuel : Nat) (seen : List (List Word × Command)) (tokens : Tokens) :
    Except GrammarError (List (List Word × Command) × Tokens) :=
  match fuel with
  | 0 => unexpected tokens
  | fuel + 1 => do
      let tokens := skipLineEnds tokens
      if headWord? tokens == some "esac" then
        return (seen.reverse, tokens.drop 1)
      else
        let tokens := if headOperator? tokens == some "(" then tokens.drop 1 else tokens
        let (patterns, tokens) ← readPatterns [] tokens
        let (body, tokens) ← readList fuel tokens
        if headOperator? tokens == some ";;" then
          readBranches fuel ((patterns, body) :: seen) (tokens.drop 1)
        else
          if headWord? tokens != some "esac" then
            unexpectedFor (expectedText ";;") tokens
          else
            return (((patterns, body) :: seen).reverse, tokens.drop 1)

/-- A command in brackets of some kind, or none if the tokens open none. -/
def readCompound (fuel : Nat) (tokens : Tokens) : Except GrammarError (Option (Command × Tokens)) :=
  match fuel with
  | 0 => unexpected tokens
  | fuel + 1 => do
      if headOperator? tokens == some "(" then
        let (body, tokens) ← readBody fuel ")" (tokens.drop 1)
        let tokens ← expectOperator ")" tokens
        return some (.subshell body, tokens)
      else
        match headWord? tokens with
        | some "if" => return some (← readConditional fuel (tokens.drop 1))
        | some "while" =>
            let (test, tokens) ← readBody fuel "do" (tokens.drop 1)
            let tokens ← expectWord "do" tokens
            let (body, tokens) ← readBody fuel "done" tokens
            let tokens ← expectWord "done" tokens
            return some (.loop false test body, tokens)
        | some "until" =>
            let (test, tokens) ← readBody fuel "do" (tokens.drop 1)
            let tokens ← expectWord "do" tokens
            let (body, tokens) ← readBody fuel "done" tokens
            let tokens ← expectWord "done" tokens
            return some (.loop true test body, tokens)
        | some "for" =>
            match (headWord? (tokens.drop 1)).filter fun name => isVariableName name.toList with
            | none => .error ⟨headLine (tokens.drop 1), "Bad for loop variable"⟩
            | some name =>
                let after := skipLineEnds (tokens.drop 2)
                let (words, after) : Option (List Word) × Tokens :=
                  if headWord? after == some "in" then
                    let (words, rest) := readLoopWords [] (after.drop 1)
                    (some words, rest)
                  else
                    (none, after)
                let separated :=
                  match after with
                  | (_, .lineEnd) :: _ => true
                  | _ => headOperator? after == some ";"
                if words.isSome && !separated then
                  unexpected after
                else
                let after := if headOperator? after == some ";" then after.drop 1 else after
                let after ← expectWord "do" (skipLineEnds after)
                let (body, after) ← readBody fuel "done" after
                let after ← expectWord "done" after
                return some (.iterate name.toList words body, after)
        | some "case" =>
            match tokens.drop 1 with
            | (_, .word subject) :: rest =>
                let rest ← expectWord "in" (skipLineEnds rest)
                let (branches, rest) ← readBranches fuel [] rest
                return some (.choose subject branches, rest)
            | other => unexpectedFor "word" other
        | some word =>
            if word == String.singleton leftBrace then
              let (body, tokens) ← readBody fuel (String.singleton rightBrace) (tokens.drop 1)
              let tokens ← expectWord (String.singleton rightBrace) tokens
              return some (body, tokens)
            else
              return none
        | none => return none

def readCommand (fuel : Nat) (tokens : Tokens) : Except GrammarError (Command × Tokens) :=
  match fuel with
  | 0 => unexpected tokens
  | fuel + 1 => do
      match definedName? tokens with
      | some (name, rest) =>
          let (body, rest) ← readCommand fuel (skipLineEnds rest)
          return (.define name body, rest)
      | none =>
          match ← readCompound fuel tokens with
          | some (body, rest) =>
              let (redirects, rest) ← readRedirects rest.length [] rest
              return (if redirects.isEmpty then body else .redirected body redirects, rest)
          | none =>
              if (headWord? tokens).any closingWords.contains then
                unexpected tokens
              else if opensDefinition tokens then
                unexpectedFor (expectedText ")") (tokens.drop 2)
              else
                readSimple (tokens.length + 1) (headLine tokens) [] [] [] tokens

end

/-- A line of commands: a list up to a line end that no command goes over. -/
def readLine (fuel : Nat) (tokens : Tokens) : Reading Command :=
  match fuel with
  | 0 => unexpected tokens
  | fuel + 1 =>
      match readChain (8 * tokens.length + 8) tokens with
      | .error error => .error error
      | .ok (first, rest) =>
          let (first, rest, goesOn) : Command × Tokens × Bool :=
            match headOperator? rest with
            | some ";" => (first, rest.drop 1, true)
            | some "&" => (.background first, rest.drop 1, true)
            | _ => (first, rest, false)
          match rest with
          | [] => .ok (first, [])
          | (_, .lineEnd) :: later => .ok (first, later)
          | _ =>
              if goesOn then
                match readLine fuel rest with
                | .error error => .error error
                | .ok (second, later) => .ok (.sequence first second, later)
              else
                unexpected rest

/-- The lines of a script, up to the first that cannot be read. -/
def readLines (fuel : Nat) (tokens : Tokens) : List Command × Option GrammarError :=
  match fuel with
  | 0 => ([], none)
  | fuel + 1 =>
      match skipLineEnds tokens with
      | [] => ([], none)
      | tokens =>
          match readLine (tokens.length + 1) tokens with
          | .error error => ([], some error)
          | .ok (command, rest) =>
              let (commands, error?) := readLines fuel rest
              (command :: commands, error?)

/-- The lines of a script, up to the first that cannot be read. -/
def readScript (script : Bytes) : List Command × Option GrammarError :=
  let tokens := tokenize script
  readLines (tokens.length + 1) tokens

end OpcodeTable.Script
