import OpcodeTable.TestCase.Basic
import OpcodeTable.Text.Hex

/-!
# Test results and the corpus

The result of a test is what the assembler made of it. The corpus is a text with one line for each test
whose bytes were accepted; the others are only counted.
-/

namespace OpcodeTable

/-- An assembler's refusal of an instruction. -/
structure Rejection where
  code : Int
  diagnostic : String
deriving DecidableEq, Repr

/-- The text that reports a refusal. -/
def Rejection.message (rejection : Rejection) : String :=
  "assembler rejected test (exit code " ++ toString rejection.code ++ "): " ++ rejection.diagnostic

/-- What an assembler made of a test. Bytes that differ from the table are kept with the reason. -/
inductive Outcome where
  | encoded (bytes : List UInt8)
  | rejected (rejection : Rejection)
  | mismatched (bytes : List UInt8) (reason : String)
deriving DecidableEq, Repr

structure TestResult where
  test : TestCase
  outcome : Outcome
deriving DecidableEq, Repr

def TestResult.bytes? (result : TestResult) : Option (List UInt8) :=
  match result.outcome with
  | .encoded bytes => some bytes
  | _ => none

/-- The result has accepted bytes. -/
def TestResult.isVerified (result : TestResult) : Bool :=
  result.bytes?.isSome

/-- How a line of the corpus is written: the instruction with its bytes in a remark, or a call that checks
them. -/
inductive CorpusFormat where
  | line
  | call
deriving DecidableEq, Repr

def TestResult.corpusLine? (format : CorpusFormat) (result : TestResult) : Option String :=
  result.bytes?.map fun bytes =>
    let hex := String.ofList (Text.hexBytes bytes)
    match format with
    | .line => result.test.text ++ " ;" ++ hex
    | .call =>
        "TEST_INST(\"" ++ hex ++ "\", " ++ result.test.variant.name ++ "(" ++
          ", ".intercalate result.test.values ++ "));"

/-- The corpus of a list of results. -/
def corpusText (format : CorpusFormat) (results : List TestResult) : String :=
  String.join ((results.filterMap (TestResult.corpusLine? format)).map fun line => line ++ "\n")

/-- How many results there are of each kind. -/
structure CorpusSummary where
  verified : Nat
  rejected : Nat
  mismatched : Nat
deriving DecidableEq, Repr

namespace CorpusSummary

def ofResults (results : List TestResult) : CorpusSummary where
  verified := results.countP fun result => result.isVerified
  rejected := results.countP fun result => match result.outcome with
    | .rejected _ => true
    | _ => false
  mismatched := results.countP fun result => match result.outcome with
    | .mismatched _ _ => true
    | _ => false

/-- The number of results without accepted bytes. -/
def failed (summary : CorpusSummary) : Nat :=
  summary.rejected + summary.mismatched

/-- The counts as one line. -/
def display (summary : CorpusSummary) : String :=
  toString summary.verified ++ " verified, " ++ toString summary.rejected ++ " rejected, " ++
    toString summary.mismatched ++ " mismatched"

end CorpusSummary

end OpcodeTable
