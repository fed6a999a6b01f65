import BoundedSimplex.Solver.Run
import BoundedSimplex.Text.Quoted

/-!
# Reading a Solver

What a solver tells about itself, during and after a search.

Values, roles and coefficients are asked of the engine each time, so that
they are the engine's own. The same questions are answered in every phase.

## Main definitions

* `Solver.solution`, `Solver.assignment`, `Solver.role`: The variables.
* `Solver.entry`: A coefficient.
* `Solver.render`: The tableau as text.
* `Solver.text`: A solver in one line.
-/

namespace BoundedSimplex

namespace Solver

variable {β α : Type} [Engine β α]

/-- The value of a variable. -/
def assignment (var : Nat) : Exec (Solver β α) α := onEngine (BoundStore.assignment var)

/-- The values of the problem variables. The slacks are left out, and can be asked for one
    by one. -/
def solution : Exec (Solver β α) (Array α) := do
  let s ← Exec.state
  onEngine (BoundStore.assignments s.numCols)

/-- The role of a variable. -/
def role (var : Nat) : Exec (Solver β α) Role := onEngine (BoundStore.role var)

/-- The name of the engine. -/
def engineName (s : Solver β α) : String := Engine.name s.workspace.engine

/-- A coefficient by row and column. Rows that are not taken can be asked for, and are zero. -/
def entry (row col : Nat) : Exec (Solver β α) α := do
  let s ← Exec.state
  Exec.check (Error.checkIndex row s.maxRows)
  Exec.check (Error.checkIndex col s.numCols)
  onWorkspace (Engine.entry row col)

/-- A variable and its value. -/
def label [Scalar α] (var : Nat) : Exec (Solver β α) String := do
  let s ← Exec.state
  let x ← assignment var
  let name := varName var s.numCols
  pure s!"[{name}={Scalar.text x}]"

/-- One line of the tableau: the variable of the row and its coefficients. Each coefficient
    is asked for on its own. -/
def renderRow [Scalar α] (row : Nat) : Exec (Solver β α) String := do
  let s ← Exec.state
  let var ← Exec.entry (s.basis.rowVar? row)
  let head ← label var
  let cells ← (List.range s.numCols).mapM fun col => do
    let x ← entry row col
    pure (" " ++ Scalar.text x)
  pure (head ++ String.join cells ++ "\n")

/-- The tableau as text: a line with the column variables and one line for
    each row that is taken, all variables with their values. -/
def render [Scalar α] : Exec (Solver β α) String := do
  let s ← Exec.state
  let header ← (List.range s.numCols).mapM fun col => do
    let var ← Exec.entry (s.basis.colVar? col)
    label var
  let rows ← (List.range s.numRows).mapM renderRow
  pure ("     " ++ " ".intercalate header ++ "\n" ++ String.join rows)

/-- A solver in one line. -/
def text (s : Solver β α) : String :=
  let engine := Text.quoted s.engineName
  let state := s.phase.label
  s!"Solver \x7b backend: {engine}, rows: {s.numRows}, max_rows: {s.maxRows}, cols: {s.numCols}, state: {state}, pivots: {s.history.size} \x7d"

end Solver

end BoundedSimplex
