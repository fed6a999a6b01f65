import BoundedSimplex.Solver.Basic

/-!
# The Search

Iterating until no variable is broken or one cannot be corrected.

An iteration looks for the lowest broken basic variable. If there is none the
system is satisfied. Otherwise the lowest nonbasic variable that can correct
it is looked for. If there is none, the row of the broken variable shows that
no assignment satisfies the system. Otherwise the two are exchanged and the
basic variables recomputed.

The iteration limit is looked at only when a broken variable was found, so
that a system which is satisfied after the last exchange allowed still gets
its verdict. In floating point a search may go in circles, so a search is
given a number of iterations to make at most.

## Main definitions

* `Solver.iterate`: One iteration.
* `Solver.run`: Iterations up to a verdict.
* `Solver.solve`: The search, once.
-/

namespace BoundedSimplex

namespace Solver

variable {β α : Type} [Engine β α]

/-- Stop at the iteration limit, if there is one. A limit of zero allows no exchange. -/
def checkLimit (iteration : Nat) : Exec (Solver β α) Unit := do
  let s ← Exec.state
  match s.config.maxIterations with
  | some limit => if limit ≤ iteration then Exec.fail (.iterationLimit limit)
  | none => pure ()

/-- One iteration: the verdict, or nothing if two variables were exchanged. The limit is
    looked at after a broken variable was found, so a search that is done is not stopped by
    it. -/
def iterate (iteration : Nat) : Exec (Solver β α) (Option Bool) := do
  match ← onWorkspace Engine.checkBounds with
  | none => pure (some true)
  | some broken =>
    -- A search that is over its limit leaves no trace of this variable.
    checkLimit iteration
    Exec.emit (.brokenVariable iteration broken)
    notify (.broken iteration broken)
    match ← onWorkspace (Engine.findSuitable broken) with
    | none =>
      Exec.emit (.noSuitable iteration broken)
      pure (some false)
    | some entering =>
      onWorkspace (Engine.pivot broken entering)
      let step : PivotStep := ⟨iteration, broken, entering⟩
      Exec.emit (.pivot iteration broken entering)
      Exec.update fun s => { s with history := s.history.push step }
      let basis ← Exec.view (·.basis)
      notify (.pivot step basis)
      onWorkspace Engine.updateAssignment
      pure none

/-- Iterations up to a verdict, at most `fuel` of them. Fuel is no part of the search: it is
    what makes the loop a function, and nothing is recorded when it is used up. -/
def run : (fuel iteration : Nat) → Exec (Solver β α) Bool
  | 0, _ => throw .outOfFuel
  | fuel + 1, iteration => do
    match ← iterate iteration with
    | some sat => pure sat
    | none => run fuel (iteration + 1)

/-- Record a verdict. The phase changes first, and then it is told. -/
def finish (sat : Bool) : Exec (Solver β α) Bool := do
  let s ← Exec.state
  Exec.update fun s => { s with phase := .ofVerdict sat }
  Exec.emit (.solveFinished sat s.history.size)
  notify (.verdict sat s.history.size)
  pure sat

/-- Record that an error ended the search. The error is then reported as it was. -/
def abort (e : Error) : Exec (Solver β α) Bool := do
  Exec.update fun s => { s with phase := .aborted }
  Exec.emit (.solveAborted e)
  Exec.fail e

/-- Search for a verdict. A finished solver repeats its verdict, or refuses if
    it has none. -/
def solve (fuel : Nat) : Exec (Solver β α) Bool := do
  let s ← Exec.state
  match s.phase with
  | .sat => pure true
  | .unsat => pure false
  | .aborted => Exec.fail (.solverFinished .aborted)
  | .building =>
    Exec.emit (.solveStarted s.numRows s.numCols (Engine.name s.workspace.engine))
    Exec.onError (do
      onWorkspace Engine.prepare
      let sat ← run fuel 0
      finish sat) abort

end Solver

end BoundedSimplex
