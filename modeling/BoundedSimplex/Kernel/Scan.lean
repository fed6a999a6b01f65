import BoundedSimplex.Kernel.Basic
import BoundedSimplex.Correction

/-!
# Scanning Kernels

Finding the lowest variable of a chunk that qualifies, and correcting it.

A scan runs one work item for each variable of a chunk. Every item that
qualifies lowers the output to its own number if it is lower than what is
there, so after the launch the output holds the least of what it held before
and of the variables that qualify, in whatever order the items ran.

## Main definitions

* `lowerOutput`: The work items of a scan.
* `checkBounds`, `findSuitable`: The two scans.
* `findSuitableComplete`: The correction of one pair of variables.
-/

namespace BoundedSimplex

namespace Kernel

/-- Lower the output to a variable, if that qualifies. A variable that does not qualify
    leaves it as it is. -/
def lowerTo (qualifies : Nat → Body Bool) (var : Nat) : Body Unit := do
  if ← qualifies var then Body.write fun out => out.modify 0 fun w => min w var.toUInt32

/-- Lower the output to every variable from `first` up to `last` that
    qualifies. -/
def lowerOutput (first last : Nat) (qualifies : Nat → Body Bool) : Body Unit :=
  (List.range' first (last - first)).forM (lowerTo qualifies)

/-- The lowest broken basic variable of a chunk. Work items beyond the last variable do
    nothing, and a hit lowers the output, so that the launches of one scan agree on the
    lowest variable of all. -/
def checkBounds (inv : Invocation) : KernelRun :=
  let numVars := inv.nat 0
  let offset := inv.nat 1
  let tolerance := inv.number 2
  inv.withOutput 5 fun m => do
    let bounds ← BoundView.read inv m 0
    let values ← inv.input m 3
    let flags ← inv.input m 4
    -- The mask is not among the buffers that are compared with the number of variables.
    inv.need "bound buffers" (min bounds.lower.size bounds.upper.size) numVars
    inv.need "assignment buffer" (min values.size flags.size) numVars
    inv.need "output" (← Body.output).size 1
    lowerOutput offset (min (offset + inv.size.spanX) numVars) fun var => do
      if (← Body.entry flags[var]?) ≠ Role.basic.flag then pure false
      else
        let value ← Body.entry (values.number? var)
        let interval ← Body.entry (bounds.interval? var)
        pure (interval.isBroken tolerance value)

/-- The lowest nonbasic variable of a chunk that can correct the broken one. The correction
    is worked out once for the launch, from the bounds that the broken variable violates. -/
def findSuitable (inv : Invocation) : KernelRun :=
  let numVars := inv.nat 0
  let numCols := inv.nat 1
  let broken := inv.nat 2
  let offset := inv.nat 3
  inv.withOutput 7 fun m => do
    let tableau ← inv.input m 0
    let bounds ← BoundView.read inv m 1
    let values ← inv.input m 4
    let flags ← inv.input m 5
    let places ← inv.input m 6
    inv.need "assignment buffer" (min values.size flags.size) numVars
    inv.need "var_to_tableau" places.size numVars
    inv.need "output" (← Body.output).size 1
    -- What is broken is not compared with anything, and neither are bounds and tableau.
    let row ← Body.entry places[broken]?
    let value ← Body.entry (values.number? broken)
    let interval ← Body.entry (bounds.interval? broken)
    let correction := Correction.ofBroken interval value
    lowerOutput offset (min (offset + inv.size.spanX) numVars) fun var => do
      if (← Body.entry flags[var]?) ≠ Role.nonbasic.flag then pure false
      else
        let col ← Body.entry places[var]?
        let coeff ← Body.entry (tableau.number? (row.toNat * numCols + col.toNat))
        let value ← Body.entry (values.number? var)
        let interval ← Body.entry (bounds.interval? var)
        pure (correction.accepts coeff (interval.canIncrease value) (interval.canDecrease value))

/-- Move the suitable variable, and then the broken one by as much as it misses its bound.
    Only the length of the table of values is checked beforehand. -/
def findSuitableComplete (inv : Invocation) : KernelRun :=
  let numCols := inv.nat 0
  let broken := inv.nat 1
  let suitable := inv.nat 2
  inv.withOutput 4 fun m => do
    let tableau ← inv.input m 0
    let bounds ← BoundView.read inv m 1
    let places ← inv.input m 5
    inv.need "assignment buffer" (← Body.output).size (max broken suitable + 1)
    let row ← Body.entry places[broken]?
    let col ← Body.entry places[suitable]?
    let coeff ← Body.entry (tableau.number? (row.toNat * numCols + col.toNat))
    let value ← Body.entry ((← Body.output).number? broken)
    let interval ← Body.entry (bounds.interval? broken)
    let correction := Correction.ofBroken interval value
    -- Both values are read before either is moved, since the correction was worked out above.
    Body.write fun out => out.modify suitable fun w =>
      (correction.shift ⟨w⟩ (correction.theta coeff)).bits
    Body.write fun out => out.modify broken fun w => (correction.shift ⟨w⟩ correction.delta).bits

end Kernel

end BoundedSimplex
