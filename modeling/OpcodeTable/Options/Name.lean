/-!
# Targets and dialects

A table is built for one of two targets, and test instructions are written in one of two assembler
dialects.
-/

namespace OpcodeTable

/-- The architecture that a table is built for. -/
inductive Target where
  | x86 | x64
deriving DecidableEq, Repr

/-- The assembler dialect that test instructions are written in. -/
inductive Dialect where
  | nasm | gas
deriving DecidableEq, Repr

/-- A word that names no target or no dialect. -/
inductive NameError where
  | unknownTarget (word : String)
  | unknownDialect (word : String)
deriving DecidableEq, Repr

/-- The text that reports a word. -/
def NameError.message : NameError → String
  | .unknownTarget word => "unknown target architecture '" ++ word ++ "'"
  | .unknownDialect word => "unknown assembler dialect '" ++ word ++ "'"

namespace Target

/-- The target that a word names, in any letter case. -/
def parse (word : String) : Except NameError Target :=
  match word.toLower with
  | "x86" => .ok .x86
  | "x64" | "x86_64" => .ok .x64
  | _ => .error (.unknownTarget word)

/-- A form with this architecture tag belongs to the target. A form without a tag, or with a tag that
names neither target, belongs to both. -/
def accepts (target : Target) : Option String → Bool
  | none => true
  | some tag =>
      match tag.toUpper with
      | "X86" => target == .x86
      | "X64" | "X86_64" | "AMD64" => target == .x64
      | _ => true

end Target

namespace Dialect

/-- The dialect that a word names, in any letter case. -/
def parse (word : String) : Except NameError Dialect :=
  match word.toLower with
  | "nasm" => .ok .nasm
  | "gas" | "as" => .ok .gas
  | _ => .error (.unknownDialect word)

end Dialect

end OpcodeTable
