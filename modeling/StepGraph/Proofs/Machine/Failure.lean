import StepGraph.Proofs.Machine.Footprint
import StepGraph.Proofs.Workbench

/-!
# Failed statements

A statement checks everything before it stores anything, and what it writes it
writes last.  The one exception is the prompt of a question, which is shown before
the answer is known to be missing.  So a statement that fails leaves the machine as
it was, but for such a prompt.
-/

namespace StepGraph

namespace Machine

variable {m : Machine} {line : Int} {prompt : Text} {fault : Fault}

end Machine

end StepGraph
