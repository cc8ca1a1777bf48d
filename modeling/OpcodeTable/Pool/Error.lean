/-!
# Errors of a validation run

What can end a run of the worker pool, and how each fault reads.
-/

namespace OpcodeTable

/-- How a program ended. -/
inductive ExitStatus where
  | code (value : Int)
  | signal
deriving DecidableEq, Repr

/-- How a program ended, as text. -/
def ExitStatus.text : ExitStatus → String
  | .code value => "exit code " ++ toString value
  | .signal => "terminated by signal"

/-- A fault that ends a validation run. -/
inductive PoolError where
  | spawn (worker : Nat) (reason : String)
  | crashed (worker : Nat)
  | missingResults (worker : Nat)
  | launch (worker : Nat) (program reason : String)
  | unexpectedExit (worker : Nat) (program : String) (status : ExitStatus) (test : String)
  | scratch (worker : Nat) (reason : String)
deriving DecidableEq, Repr

/-- The text that reports a fault. -/
def PoolError.message : PoolError → String
  | .spawn worker reason => "failed to spawn worker " ++ toString worker ++ ": " ++ reason
  | .crashed worker => "worker " ++ toString worker ++ " panicked"
  | .missingResults worker => "worker " ++ toString worker ++ " finished without reporting results"
  | .launch worker program reason =>
      "worker " ++ toString worker ++ " could not launch '" ++ program ++ "': " ++ reason
  | .unexpectedExit worker program status test =>
      "worker " ++ toString worker ++ ": '" ++ program ++ "' exited unexpectedly (" ++ status.text ++
        ") on '" ++ test ++ "'"
  | .scratch worker reason => "worker " ++ toString worker ++ ": scratch file error: " ++ reason

end OpcodeTable
