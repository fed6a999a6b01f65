/-!
# The Basis

Which variable owns which row and column.

The variables are numbered, the problem variables first and the slacks after
them. At any time each owns one row or one column. Two tables name the owner
of every column and of every row, and a third gives the place of every
variable; whether that place is a row or a column is not recorded here.

An exchange gives a row to a column's variable and the column to the row's.
It goes by the places of the two variables alone and does not ask who owned
what, so that two variables of the same kind can be named; the tables are
then no longer in step, which `isConsistent` tells.

## Main definitions

* `Basis`: The three tables.
* `Basis.ofDimensions`: Problem variables in the columns, slacks in the rows.
* `Basis.initial`: The same for numbers that may not fit a word.
* `Basis.swap?`: The exchange of two variables.
* `Basis.isConsistent`: Every place leads back to its owner.

## Theorems

* `Basis.initial_eq_ofDimensions`: Numbers that fit a word count in full.
-/

namespace BoundedSimplex

/-- The owners of the columns and rows, and the place of every variable. The third table is
    the inverse of the other two as long as nobody exchanges two variables that own places
    of the same kind. -/
structure Basis where
  /-- The variable in each column. -/
  colVar : Array Nat
  /-- The variable in each row. -/
  rowVar : Array Nat
  /-- The column or row of each variable. -/
  place : Array Nat
deriving DecidableEq

namespace Basis

/-- Problem variable `c` in column `c`, and slack `r` in row `r`, for as many
    rows and columns as there are. -/
def ofDimensions (rows cols : Nat) : Basis where
  colVar := Array.range cols
  rowVar := (Array.range rows).map (cols + ·)
  place := Array.range cols ++ Array.range rows

/-- Problem variables in the columns and slacks in the rows. Rows and columns
    are counted in words, so of a larger number only the remainder counts. -/
def initial (maxRows numCols : Nat) : Basis :=
  ofDimensions (maxRows % UInt32.size) (numCols % UInt32.size)

/-- Numbers that fit a word count in full. -/
theorem initial_eq_ofDimensions {maxRows numCols : Nat} (hr : maxRows < UInt32.size)
    (hc : numCols < UInt32.size) : initial maxRows numCols = ofDimensions maxRows numCols := by
  rw [initial, Nat.mod_eq_of_lt hr, Nat.mod_eq_of_lt hc]

/-- The row or column of a variable. Which of the two it is cannot be told from the number,
    only from the role. -/
def place? (b : Basis) (var : Nat) : Option Nat := b.place[var]?

/-- The variable that owns a column. -/
def colVar? (b : Basis) (col : Nat) : Option Nat := b.colVar[col]?

/-- The variable that owns a row. -/
def rowVar? (b : Basis) (row : Nat) : Option Nat := b.rowVar[row]?

/-- Exchange the owner `leaving` of a row with the owner `entering` of a
    column. The places they had are returned with the new tables. -/
def swap? (b : Basis) (leaving entering : Nat) : Option ((Nat × Nat) × Basis) := do
  let row ← b.place? leaving
  let col ← b.place? entering
  if row < b.rowVar.size ∧ col < b.colVar.size then
    -- If both are the same variable the place written last stays.
    some ((row, col),
      { colVar := b.colVar.setIfInBounds col leaving
        rowVar := b.rowVar.setIfInBounds row entering
        place := (b.place.setIfInBounds leaving col).setIfInBounds entering row })
  else none

/-- Every column and every row leads to a variable whose place it is. Variables that own
    nothing are not looked at. -/
def isConsistent (b : Basis) : Bool :=
  (List.range b.colVar.size).all (fun c => (b.colVar[c]?).bind b.place? == some c)
    && (List.range b.rowVar.size).all (fun r => (b.rowVar[r]?).bind b.place? == some r)

end Basis

/-- The name of a variable: problem variables are numbered from `x0` and
    slacks from `s0`. -/
def varName (var numCols : Nat) : String :=
  if numCols ≤ var then s!"s{var - numCols}" else s!"x{var}"

end BoundedSimplex
