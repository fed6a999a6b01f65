import BoundedSimplex.Engine.Basic
import BoundedSimplex.Bounds.Table
import BoundedSimplex.Tableau.VarSet

/-!
# The Sequential Engine

The search on tables of the process, one step after the other.

The engine keeps the basic and the nonbasic variables as two ascending sets.
A scan walks one of them and stops at the first variable that qualifies, which
is the lowest. A value is the sum of its row's products from left to right,
starting from zero.

Nothing here depends on the type of numbers, so that the engine can be read
over exact arithmetic as well.

## Main definitions

* `Sequential`: The bounds and the two sets.
* `Sequential.firstBroken`, `Sequential.firstSuitable`: The two scans.
* `Sequential.rowValue`: The value a row gives to its variable.
-/

namespace BoundedSimplex

/-- The bounds of all variables, and which of them are basic. The two sets say again what
    the roles in the table say, so that a scan need not look at every variable. -/
structure Sequential (α : Type) where
  /-- Bounds, values and roles. -/
  bounds : Bounds.Table α
  /-- The variables that own rows. -/
  basic : VarSet
  /-- The variables that own columns. -/
  nonbasic : VarSet

namespace Sequential

variable {α : Type} [Scalar α]

/-- An engine for `maxRows` slacks and `numCols` problem variables. The slacks are basic,
    and have the highest numbers. -/
def initial (maxRows numCols : Nat) (tolerance : α) : Sequential α where
  bounds := .initial maxRows numCols tolerance
  basic := .interval numCols maxRows
  nonbasic := .interval 0 numCols

instance : BoundStore (Sequential α) α :=
  .ofPart (·.bounds) (fun b s => { s with bounds := b })

/-- The first broken variable of a list. A variable that does not exist is an error, but a
    list of members has none. -/
def firstBroken (bounds : Bounds.Table α) : List Nat → Except Error (Option Nat)
  | [] => .ok none
  | var :: rest => do
    let v ← bounds.at? var
    if v.interval.isBroken bounds.tolerance v.value then pure (some var)
    else firstBroken bounds rest

/-- The coefficient of a nonbasic variable in a row, if the variable can take
    part in the correction. -/
def coefficientIfAccepted (w : Workspace (Sequential α) α) (row : Nat) (c : Correction α)
    (var : Nat) : Except Stop (Option α) := do
  let col ← unguarded (w.basis.place? var)
  let coeff ← Stop.orError (w.tableau.get row col)
  let v ← Stop.orError (w.engine.bounds.at? var)
  if c.accepts coeff (v.interval.canIncrease v.value) (v.interval.canDecrease v.value) then
    pure (some coeff)
  else pure none

/-- The first variable of a list that can take part in the correction, with its coefficient.
    The coefficient is what the correction is then carried out with. -/
def firstSuitable (w : Workspace (Sequential α) α) (row : Nat) (c : Correction α) :
    List Nat → Except Stop (Option (Nat × α))
  | [] => .ok none
  | var :: rest => do
    match ← coefficientIfAccepted w row c var with
    | some coeff => pure (some (var, coeff))
    | none => firstSuitable w row c rest

/-- The value a row gives to its variable: its products with the values of the column
    variables, added from left to right. With numbers that round the order matters. -/
def rowValue (w : Workspace (Sequential α) α) (row : Nat) : Option α :=
  (List.range w.tableau.numCols).foldlM (fun sum col => do
    let var ← w.basis.colVar? col
    let v ← w.engine.bounds.entries[var]?
    let coeff ← w.tableau.cell? (row * w.tableau.numCols + col)
    some (sum + v.value * coeff)) 0

/-- The lowest broken basic variable. The members of a set come in ascending order, so the
    first one that is broken is the lowest. -/
def checkBounds : Exec (Workspace (Sequential α) α) (Option Nat) := do
  let w ← Exec.state
  Exec.check (firstBroken w.engine.bounds w.engine.basic.members)

/-- The lowest nonbasic variable that can correct the broken one. If there is one, the
    correction is carried out before it is returned. -/
def findSuitable (broken : Nat) : Exec (Workspace (Sequential α) α) (Option Nat) := do
  let w ← Exec.state
  let v ← Exec.check (w.engine.bounds.at? broken)
  let correction := Correction.ofBroken v.interval v.value
  let row ← Exec.entry (w.basis.place? broken)
  match ← Exec.ofExcept (firstSuitable w row correction w.engine.nonbasic.members) with
  | none => pure none
  | some (entering, coeff) =>
    Workspace.onEngine (correction.apply entering broken coeff)
    pure (some entering)

/-- Record in the two sets that one variable left the basis and another one
    entered it. -/
def exchangeMembers (leaving entering : Nat) (s : Sequential α) : Sequential α where
  bounds := s.bounds
  basic := (s.basic.erase leaving).insert entering
  nonbasic := (s.nonbasic.erase entering).insert leaving

/-- Exchange two variables in the tableau, the basis, the sets and the roles. The order only
    matters if one of these fails. -/
def pivot (leaving entering : Nat) : Exec (Workspace (Sequential α) α) Unit := do
  let w ← Exec.state
  let row ← Exec.entry (w.basis.place? leaving)
  let col ← Exec.entry (w.basis.place? entering)
  let tableau ← Exec.entry (w.tableau.exchange? row col)
  Exec.update fun w => { w with tableau := tableau }
  let (_, basis) ← Exec.entry (w.basis.swap? leaving entering)
  Exec.update fun w =>
    { w with basis := basis, engine := w.engine.exchangeMembers leaving entering }
  Workspace.onEngine (BoundStore.setRole leaving .nonbasic)
  Workspace.onEngine (BoundStore.setRole entering .basic)

/-- Recompute the basic variable of one row. The value is worked out from the tables as they
    are by then. -/
def updateRow (row : Nat) : Exec (Workspace (Sequential α) α) Unit := do
  let w ← Exec.state
  let value ← Exec.entry (rowValue w row)
  let var ← Exec.entry (w.basis.rowVar? row)
  Workspace.onEngine (BoundStore.setAssignment var value)

/-- Recompute the basic variables of some rows, one after the other. -/
def updateRows (rows : List Nat) : Exec (Workspace (Sequential α) α) Unit :=
  rows.forM updateRow

instance : Engine (Sequential α) α where
  name _ := "sequential"
  prepare := pure ()
  checkBounds := checkBounds
  findSuitable := findSuitable
  pivot := pivot
  updateAssignment := do
    let w ← Exec.state
    updateRows (List.range w.tableau.numRows)
  entry row col := do
    let w ← Exec.state
    Exec.check (w.tableau.get row col)

end Sequential

end BoundedSimplex
