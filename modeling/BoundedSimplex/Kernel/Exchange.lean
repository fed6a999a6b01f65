import BoundedSimplex.Kernel.Basic

/-!
# Exchange Kernels

The three parts of an exchange on the tableau of a device.

Each part changes cells that no other work item of the same launch reads. The
inner part leaves the row and the column alone, which are all it refers to;
the other two refer to nothing but the cell they change. So the items of one
launch may run in any order. The cell where row and column meet is left to
the caller.

## Main definitions

* `eliminateRow`, `divideCell`: What a work item changes.
* `pivotUpdateInner`: The cells away from the row and the column.
* `pivotUpdateRow`, `pivotUpdateColumn`: The row and the column.
-/

namespace BoundedSimplex

namespace Kernel

/-- One row of the inner part: take from each cell its share of the row that
    is solved. -/
def eliminateCells (start cols col : Nat) (row : Words) (gamma alpha : Binary32) (out : Words) :
    Words :=
  (List.range cols).foldl (fun out c =>
    if c = col then out
    else out.modify (start + c) fun w =>
      ((⟨w⟩ : Binary32) - (row.number? c).getD 0 * gamma / alpha).bits) out

/-- One row of the inner part, if it is not the one that is solved. It reads the row and the
    column of the exchange as they were before. -/
def eliminateRow (row col numCols cols : Nat) (solved : Words) (alpha : Binary32) (r : Nat) :
    Body Unit :=
  if r = row then pure ()
  else if col < numCols then do
    let gamma ← Body.entry ((← Body.output).number? (r * numCols + col))
    Body.write (eliminateCells (r * numCols) cols col solved gamma alpha)
  -- A row has no such column, which is found out only where a row has to change.
  else throw .outOfRange

/-- The cells away from the row and the column. Rows run along `y` and columns
    along `x`. -/
def pivotUpdateInner (inv : Invocation) : KernelRun :=
  let alpha := inv.number 0
  let row := inv.nat 1
  let col := inv.nat 2
  let numRows := inv.nat 3
  let numCols := inv.nat 4
  if numCols = 0 then fun m => (.ok (), m)
  else inv.withOutput 0 fun _ => do
    let out ← Body.output
    inv.need "tableau" out.size (numRows * numCols)
    if out.size < (row + 1) * numCols then throw .outOfRange
    else
      -- The row that is solved is read once, before any cell changes.
      let solved : Words := out.extract (row * numCols) ((row + 1) * numCols)
      (List.range (min inv.size.spanY numRows)).forM
        (eliminateRow row col numCols (min inv.size.spanX numCols) solved alpha)

/-- The row that is solved, away from the column. It is divided and negated in place, cell
    by cell. -/
def pivotUpdateRow (inv : Invocation) : KernelRun :=
  let alpha := inv.number 0
  let row := inv.nat 1
  let col := inv.nat 2
  let numCols := inv.nat 3
  inv.withOutput 0 fun _ => do
    inv.need "tableau" (← Body.output).size ((row + 1) * numCols)
    Body.write fun out => (List.range (min inv.size.spanX numCols)).foldl (fun (out : Words) c =>
      if c = col then out
      else out.modify (row * numCols + c) fun w => (-(⟨w⟩ : Binary32) / alpha).bits) out

/-- One cell of the column, if its row is not the one that is solved. -/
def divideCell (row col numCols : Nat) (alpha : Binary32) (r : Nat) : Body Unit :=
  if r = row then pure ()
  else do
    let old ← Body.entry ((← Body.output).number? (r * numCols + col))
    Body.write fun out => out.setIfInBounds (r * numCols + col) (old / alpha).bits

/-- The column, away from the row. It is divided in place, cell by cell. -/
def pivotUpdateColumn (inv : Invocation) : KernelRun :=
  let alpha := inv.number 0
  let row := inv.nat 1
  let col := inv.nat 2
  let numRows := inv.nat 3
  let numCols := inv.nat 4
  inv.withOutput 0 fun _ => do
    inv.need "tableau" (← Body.output).size (numRows * numCols)
    (List.range (min inv.size.spanX numRows)).forM (divideCell row col numCols alpha)

end Kernel

end BoundedSimplex
