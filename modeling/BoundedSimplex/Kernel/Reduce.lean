import BoundedSimplex.Kernel.Basic

/-!
# Reducing Kernels

Sums over a row, taken by workgroups.

A workgroup adds its items in an array that all of them share. In the first
round each item of the lower half takes in the one that lies half a workgroup
further up, in the next round the one that lies a quarter further up, until
one item is left. Rounding makes the order visible in the result, so it is
fixed here for every width that is a power of two. Items beyond the count are
zero, and so are whole workgroups beyond it.

One workgroup after the other uses the same array. Each fills every cell of it
before it adds.

A sum over a row longer than a workgroup takes several launches. The first
leaves one partial sum for each workgroup, further ones sum those, and the
last, in a single workgroup, writes the value of the variable.

## Main definitions

* `treeReduce`: The sum of the items of a workgroup, in the array they share.
* `partialSums`: One sum for each workgroup.
* `updateAssignment`, `reducePartialSums`, `updateAssignmentComplete`: The
  first launch, the further ones and the last.
-/

namespace BoundedSimplex

namespace Kernel

/-! ### One workgroup -/

section Tree

variable {α : Type} [Add α]

/-- A cell takes in the one that lies `stride` further up. That one keeps what it has, and
    is not looked at any more. -/
def addAcross (stride : Nat) (shared : Array α) (i : Nat) : Except Stop (Array α) := do
  let low ← unguarded shared[i]?
  let high ← unguarded shared[i + stride]?
  return shared.setIfInBounds i (low + high)

/-- The rounds from one stride on, each with half the stride of the one
    before. -/
def foldRounds (stride : Nat) (shared : Array α) : Except Stop (Array α) :=
  if stride = 0 then .ok shared
  else do
    let shared ← (List.range stride).foldlM (addAcross stride) shared
    foldRounds (stride / 2) shared
termination_by stride

/-- The sum of the cells, and what the rounds leave in them. The sum is in the first cell in
    the end. -/
def treeReduce (shared : Array α) : Except Stop (α × Array α) := do
  let shared ← foldRounds (shared.size / 2) shared
  let sum ← unguarded shared[0]?
  return (sum, shared)

end Tree

/-- The width of a workgroup that can be halved down to one item. Any other is refused
    before something is read. -/
def reductionWidth (inv : Invocation) : Except Stop Nat :=
  let width := inv.size.group.x
  if width ≠ 0 ∧ floorPow2 width = width then .ok width
  else .error (.error (.unevenWorkgroup inv.entry.name width))

/-- The items of one workgroup, zero from `count` on. Beyond the end nothing is read, so the
    tables may end there. -/
def groupItem (count : Nat) (load : Nat → Body Binary32) (i : Nat) : Body Binary32 :=
  if i < count then load i else pure 0

/-- Fill every cell of the shared array with the items from `first` on. No cell keeps what
    another workgroup has left. -/
def fillShared (first count : Nat) (load : Nat → Body Binary32) (shared : Array Binary32) :
    Body (Array Binary32) :=
  (List.range shared.size).foldlM (fun shared l => do
    return shared.setIfInBounds l (← groupItem count load (first + l))) shared

/-- The sum of one workgroup, which leaves the shared array to the next one. -/
def writeGroup (width count : Nat) (load : Nat → Body Binary32) (shared : Array Binary32)
    (group : Nat) : Body (Array Binary32) := do
  let filled ← fillShared (group * width) count load shared
  let (sum, rest) ← Body.ofExcept (treeReduce filled)
  Body.write fun out => out.setIfInBounds group sum.bits
  pure rest

/-- One sum for each workgroup, written from the start of the output on. The workgroups are
    run one after the other, with one shared array for all. -/
def partialSums (inv : Invocation) (count : Nat) (load : Nat → Body Binary32) : Body Unit := do
  let width ← Body.ofExcept (reductionWidth inv)
  let groups := inv.size.groups.x
  inv.need "partial sum buffer" (← Body.output).size groups
  let _ ← (List.range groups).foldlM (writeGroup width count load) (Array.replicate width 0)

/-- The partial sums of one row against the values of the column variables. The owner of a
    column is looked up in the table that was copied. -/
def updateAssignment (inv : Invocation) : KernelRun :=
  let numCols := inv.nat 0
  let row := inv.nat 1
  inv.withOutput 3 fun m => do
    let tableau ← inv.input m 0
    let values ← inv.input m 1
    let colVars ← inv.input m 2
    inv.need "tableau" tableau.size ((row + 1) * numCols)
    inv.need "col_to_var" colVars.size numCols
    partialSums inv numCols fun c => do
      let var ← Body.entry colVars[c]?
      let value ← Body.entry (values.number? var.toNat)
      let coeff ← Body.entry (tableau.number? (row * numCols + c))
      pure (value * coeff)

/-- The partial sums of partial sums. Input and output are different buffers, as one cannot
    be read while it is the output. -/
def reducePartialSums (inv : Invocation) : KernelRun :=
  let count := inv.nat 0
  inv.withOutput 1 fun m => do
    let sums ← inv.input m 0
    inv.need "partial sums" sums.size count
    partialSums inv count fun i => Body.entry (sums.number? i)

/-- The last sum, written as the value of a variable. Partial sums that one workgroup cannot
    hold are refused, and missing ones count as zero. -/
def updateAssignmentComplete (inv : Invocation) : KernelRun := fun m =>
  let count := inv.nat 0
  let var := inv.nat 1
  match reductionWidth inv with
  | .error stop => (.error stop, m)
  | .ok width =>
    -- One workgroup has to be enough, since there is no further launch.
    if width < count then (.error (.error (.tooManyPartials inv.entry.name count width)), m)
    else inv.withOutput 1 (fun m => do
      let sums ← inv.input m 0
      inv.need "partial sums" sums.size count
      inv.need "assignment buffer" (← Body.output).size (var + 1)
      let filled ← fillShared 0 count (fun i => Body.entry (sums.number? i))
        (Array.replicate width 0)
      let (sum, _) ← Body.ofExcept (treeReduce filled)
      Body.write fun out => out.setIfInBounds var sum.bits) m

end Kernel

end BoundedSimplex
