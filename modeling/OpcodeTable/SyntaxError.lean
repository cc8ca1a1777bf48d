/-!
# Errors of encoding and operand texts

What can be wrong with the text of an instruction form, and how each fault reads.
-/

namespace OpcodeTable

/-- A fault in the text of an instruction form. -/
inductive SyntaxError where
  | unknownToken (token encoding : String)
  | unknownVectorField (family field token : String)
  | invalidFold (token : String)
  | invalidModRM (token : String)
  | missingOpcode (encoding : String)
  | opcodeTooLong (encoding : String) (limit : Nat)
  | missingOpcodeMap (token : String)
  | unknownOperand (token : String)
  | emptyOperand (token : String)
  | danglingMask (token : String)
  | malformedInstruction (text : String)
deriving DecidableEq, Repr

/-- The text that reports a fault. -/
def SyntaxError.message : SyntaxError → String
  | .unknownToken token encoding =>
      "unrecognized encoding token '" ++ token ++ "' in '" ++ encoding ++ "'"
  | .unknownVectorField family field token =>
      "unrecognized " ++ family ++ " sub-field '" ++ field ++ "' in '" ++ token ++ "'"
  | .invalidFold token => "malformed opcode fold '" ++ token ++ "'"
  | .invalidModRM token => "malformed ModRM extension '" ++ token ++ "'"
  | .missingOpcode encoding => "encoding '" ++ encoding ++ "' has no opcode byte"
  | .opcodeTooLong encoding limit =>
      "encoding '" ++ encoding ++ "' has more than " ++ toString limit ++ " opcode bytes"
  | .missingOpcodeMap token => "vector prefix '" ++ token ++ "' names no opcode map"
  | .unknownOperand token => "unknown operand type '" ++ token ++ "'"
  | .emptyOperand token => "operand '" ++ token ++ "' names no operand type"
  | .danglingMask token => "mask suffix '" ++ token ++ "' does not follow an operand"
  | .malformedInstruction text => "malformed instruction syntax '" ++ text ++ "'"

end OpcodeTable
