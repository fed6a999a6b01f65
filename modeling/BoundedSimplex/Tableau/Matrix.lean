import BoundedSimplex.Error
import BoundedSimplex.Number.Scalar

/-!
# The Tableau

One row of coefficients for each constraint.

A tableau has room for a fixed number of rows and starts with none of them
taken. A row states a basic variable as a combination of the column
variables. Rows that are not taken yet are zero, and can be read like any
other.

The cells lie row by row in one table, and the exchange step addresses them
by their place in it. That is part of its meaning: given a column beyond the
last it reads on in the next row, and only a place beyond the whole table
stops it.

## Main definitions

* `Tableau`: The cells, with the number of rows taken.
* `Tableau.addRow`: Take the next row.
* `Tableau.cell?`, `Tableau.set?`: A cell by its place in the table.
* `Tableau.exchange?`: Solve one row for one column.

## Theorems

* `Tableau.cell?_set?`: A cell reads back what was written last.
-/

namespace BoundedSimplex

/-- A table of `maxRows` rows and `numCols` columns, row after row. The cells of all rows
    are there from the start, and zero in rows that were not added. -/
structure Tableau (α : Type) where
  /-- The number of rows there is room for. -/
  maxRows : Nat
  /-- The number of columns. -/
  numCols : Nat
  /-- The number of rows taken. -/
  numRows : Nat
  /-- The cells, row by row. -/
  cells : Array α
  /-- There is one cell for each row and column. -/
  size_cells : cells.size = maxRows * numCols

namespace Tableau

variable {α : Type}

/-- A tableau without rows. There is room for `maxRows` of them from the start, filled with
    zeros. -/
def empty [Zero α] (maxRows numCols : Nat) : Tableau α where
  maxRows := maxRows
  numCols := numCols
  numRows := 0
  cells := Array.replicate (maxRows * numCols) 0
  size_cells := Array.size_replicate

/-- The cell at a place in the table. -/
def cell? (t : Tableau α) (i : Nat) : Option α := t.cells[i]?

/-- Write the cell at a place in the table. -/
def set? (t : Tableau α) (i : Nat) (x : α) : Option (Tableau α) :=
  if h : i < t.cells.size then
    some { t with cells := t.cells.set i x h, size_cells := by simpa using t.size_cells }
  else none

/-- Write a run of cells from a place in the table on. -/
def setAll? (t : Tableau α) (start : Nat) (xs : Array α) : Option (Tableau α) :=
  (List.range xs.size).foldlM (fun t i => (xs[i]?).bind (t.set? (start + i))) t

/-- Take the next row, which has to have one coefficient for each column. The result has the
    index of the row with it. -/
def addRow (t : Tableau α) (coeffs : Array α) : Except Error (Nat × Tableau α) :=
  if coeffs.size ≠ t.numCols then
    .error (.constraintWidth t.numCols coeffs.size)
  else if t.maxRows ≤ t.numRows then
    .error (.capacityExceeded t.maxRows)
  else
    match t.setAll? (t.numRows * t.numCols) coeffs with
    | some t' => .ok (t.numRows, { t' with numRows := t.numRows + 1 })
    | none => .error (.capacityExceeded t.maxRows)

/-- A coefficient by row and column. Rows not taken yet can be read too. -/
def get (t : Tableau α) (row col : Nat) : Except Error α := do
  Error.checkIndex row t.maxRows
  Error.checkIndex col t.numCols
  match t.cell? (row * t.numCols + col) with
  | some x => pure x
  | none => .error (.indexOutOfBounds row t.maxRows)

/-- A whole row. -/
def row? (t : Tableau α) (row : Nat) : Option (Array α) :=
  if (row + 1) * t.numCols ≤ t.cells.size then
    some (t.cells.extract (row * t.numCols) ((row + 1) * t.numCols))
  else none

/-- Whether all of two tableaus is equal, the cells as numbers. -/
def same [Scalar α] (s t : Tableau α) : Bool :=
  s.maxRows == t.maxRows && s.numCols == t.numCols && s.numRows == t.numRows
    && s.cells.isEqv t.cells Scalar.eq

@[simp] theorem numCols_set? {t u : Tableau α} {i : Nat} {x : α} (h : t.set? i x = some u) :
    u.numCols = t.numCols ∧ u.maxRows = t.maxRows ∧ u.numRows = t.numRows := by
  unfold set? at h
  split at h
  · cases h; exact ⟨rfl, rfl, rfl⟩
  · cases h

theorem cell?_set? {t u : Tableau α} {i j : Nat} {x : α} (h : t.set? i x = some u) :
    u.cell? j = if i = j then some x else t.cell? j := by
  unfold set? at h
  split at h
  · rename_i hi
    cases h
    simp only [cell?, Array.getElem?_set]
  · cases h

/-! ### Exchanging a row with a column -/

section Exchange

variable [Scalar α]

/-- Put the solved row into row `i`, away from the column. The column is changed later, so
    it still has the factor. -/
def eliminateRow? (row col : Nat) (alpha : α) (t : Tableau α) (i : Nat) :
    Option (Tableau α) := do
  let gamma ← t.cell? (i * t.numCols + col)
  (List.range t.numCols).foldlM (fun t j =>
    if j = col then some t
    else do
      let beta ← t.cell? (row * t.numCols + j)
      let old ← t.cell? (i * t.numCols + j)
      t.set? (i * t.numCols + j) (old - beta * gamma / alpha)) t

/-- Solve row `row` for the variable of column `col` and put the solution
    into every other row that is taken.

    The order matters. The rows are changed first, while the row and the
    column they refer to still hold the old coefficients, then the row, then
    the column, and the cell where they meet last. -/
def exchange? (t : Tableau α) (row col : Nat) : Option (Tableau α) := do
  let pivot := row * t.numCols + col
  let alpha ← t.cell? pivot
  let others := (List.range t.numRows).filter (· ≠ row)
  let t ← others.foldlM (eliminateRow? row col alpha) t
  let t ← ((List.range t.numCols).filter (· ≠ col)).foldlM (fun t j => do
    let old ← t.cell? (row * t.numCols + j)
    t.set? (row * t.numCols + j) (-old / alpha)) t
  let t ← others.foldlM (fun t i => do
    let old ← t.cell? (i * t.numCols + col)
    t.set? (i * t.numCols + col) (old / alpha)) t
  t.set? pivot (1 / alpha)

end Exchange

end Tableau

end BoundedSimplex
