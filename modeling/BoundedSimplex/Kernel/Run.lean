import BoundedSimplex.Kernel.Scan
import BoundedSimplex.Kernel.Exchange
import BoundedSimplex.Kernel.Reduce

/-!
# Running a Kernel

Which kernel body an entry point stands for.

## Main definitions

* `Invocation.run`: The body of the kernel that is launched.
-/

namespace BoundedSimplex

/-- The body of the kernel that is launched. A launch is all there is to a kernel: nothing
    stays behind but words in memory. -/
def Invocation.run (inv : Invocation) : KernelRun :=
  match inv.entry with
  | .checkBounds => Kernel.checkBounds inv
  | .findSuitable => Kernel.findSuitable inv
  | .findSuitableComplete => Kernel.findSuitableComplete inv
  | .pivotUpdateInner => Kernel.pivotUpdateInner inv
  | .pivotUpdateRow => Kernel.pivotUpdateRow inv
  | .pivotUpdateColumn => Kernel.pivotUpdateColumn inv
  | .updateAssignment => Kernel.updateAssignment inv
  | .reducePartialSums => Kernel.reducePartialSums inv
  | .updateAssignmentComplete => Kernel.updateAssignmentComplete inv

end BoundedSimplex
