import BoundedSimplex.Engine.Parallel
import BoundedSimplex.Engine.Sequential

/-!
# Building a Solver

A system of constraints, its bounds, and the engine that will search it.

A solver is made for a number of problem variables and for at most so many
constraints. Each constraint defines a slack variable as a combination of the
problem variables; inequalities are bounds on slacks. Rows and bounds are
accepted until the search has begun. A call that is refused changes nothing.

A solver on a device is made from a device and yields a handle. To work with
it the handle is attached to the device; when it is dropped, what it owns
there is given back.

## Main definitions

* `Solver`: The system, its engine and the course of the search.
* `Solver.sequential`, `Solver.parallel`: Make a solver.
* `Solver.addConstraint`, `Solver.setBounds`: Build a system.
* `Solver.attach`, `Solver.drop`: A solver on a device.
-/

namespace BoundedSimplex

/-- An exchange of two variables. The history of a solver is made of these, and it is enough
    to replay the bookkeeping from the start. -/
structure PivotStep where
  /-- The iteration, counted from zero. -/
  iteration : Nat
  /-- The variable that left the basis. -/
  leaving : Nat
  /-- The variable that entered it. -/
  entering : Nat
deriving DecidableEq

/-- What an observer is told. The notices come from inside the search, at the moments they
    speak of, and nothing an observer does can change its course. -/
inductive Notice where
  /-- A broken variable was chosen. -/
  | broken (iteration var : Nat)
  /-- Two variables were exchanged, with the basis right afterwards. -/
  | pivot (step : PivotStep) (basis : Basis)
  /-- A verdict was reached after so many exchanges. -/
  | verdict (sat : Bool) (iterations : Nat)

/-- A system of constraints with the engine that searches it. Everything the caller can ask
    about is here or in the engine; there is no other state. -/
structure Solver (β α : Type) where
  /-- The tableau, the basis and the engine. -/
  workspace : Workspace β α
  /-- What the caller chose. -/
  config : Config α
  /-- Where the solver stands. -/
  phase : Phase
  /-- The exchanges so far, the oldest first. -/
  history : Array PivotStep
  /-- Whether notices are kept. -/
  observed : Bool
  /-- The notices that were kept and not taken yet, the oldest first. -/
  notices : Array Notice

namespace Solver

variable {σ β α γ : Type}

/-- A solver needs a row and a column, and its variables have to be numbered in 32 bits.
    Their number is worked out exactly here. Dimensions whose sum does not fit a word of 64
    bits are refused like all others that are too large. A machine has no such sum to
    refuse: adding them up stops the process, at once or for want of memory for so many
    cells, and no solver is made either way. -/
def checkDimensions (maxRows numCols : Nat) : Except Error Unit :=
  if maxRows = 0 then .error .noRows
  else if numCols = 0 then .error .noColumns
  else if UInt32.size ≤ maxRows + numCols then .error .tooManyVariables
  else .ok ()

/-- What can be said about a solver before an engine is made. The dimensions come first, so
    they are what is reported if the rest is wrong too. -/
def checkInput [Scalar α] (maxRows numCols : Nat) (config : Config α) : Except Error Unit := do
  checkDimensions maxRows numCols
  config.validate

/-- A solver that has not seen a constraint. The tableau is empty, every slack is basic, and
    nobody observes. -/
def fresh [Zero α] (maxRows numCols : Nat) (config : Config α) (engine : β) : Solver β α where
  workspace := ⟨.empty maxRows numCols, .initial maxRows numCols, engine⟩
  config := config
  phase := .building
  history := #[]
  observed := false
  notices := #[]

/-- A solver on tables of the process. Nothing can go wrong once the input was accepted. -/
def sequential [Scalar α] (maxRows numCols : Nat) (config : Config α) :
    Exec σ (Solver (Sequential α) α) := do
  Exec.check (checkInput maxRows numCols config)
  Exec.emit (.solverCreated maxRows numCols "sequential")
  pure (fresh maxRows numCols config (.initial maxRows numCols config.tolerance))

/-- A solver on a device. The input is checked before anything is asked of the device. -/
def parallel (maxRows numCols : Nat) (config : Config Binary32) :
    Exec Device (Solver Parallel Binary32) := do
  Exec.check (checkInput maxRows numCols config)
  let engine ← Parallel.create config maxRows numCols
  Exec.emit (.solverCreated maxRows numCols engine.name)
  pure (fresh maxRows numCols config engine)

/-- The solver with another engine. -/
def withEngine {δ : Type} (s : Solver β α) (engine : δ) : Solver δ α where
  workspace := { s.workspace with engine := engine }
  config := s.config
  phase := s.phase
  history := s.history
  observed := s.observed
  notices := s.notices

/-- The solver together with the device it lives on. It can be worked with only in this
    form. -/
def attach (s : Solver Parallel Binary32) (d : Device) : Solver (Attached Parallel) Binary32 :=
  s.withEngine ⟨s.workspace.engine, d⟩

/-- The handle of a solver on a device. -/
def detach (s : Solver (Attached Parallel) Binary32) : Solver Parallel Binary32 :=
  s.withEngine s.workspace.engine.handle

/-- The device a solver lives on. -/
def device (s : Solver (Attached Parallel) Binary32) : Device := s.workspace.engine.device

/-- Give back what a solver owns on its device. A solver in the process owns nothing, so
    there is no such operation for it. -/
def drop (s : Solver Parallel Binary32) (d : Device) : Device := s.workspace.engine.release d

/-! ### The parts of a solver -/

/-- The rows that are taken. -/
def numRows (s : Solver β α) : Nat := s.workspace.tableau.numRows

/-- The rows there is room for. -/
def maxRows (s : Solver β α) : Nat := s.workspace.tableau.maxRows

/-- The problem variables. -/
def numCols (s : Solver β α) : Nat := s.workspace.tableau.numCols

/-- The problem variables and the slacks. -/
def numVars (s : Solver β α) : Nat := s.numCols + s.maxRows

/-- The owners of rows and columns. -/
def basis (s : Solver β α) : Basis := s.workspace.basis

/-- The answer, once there is one. -/
def verdict? (s : Solver β α) : Option Bool := s.phase.verdict?

/-- An operation of the engine on the workspace. What the solver keeps besides is not
    changed by it. -/
def onWorkspace (act : Exec (Workspace β α) γ) : Exec (Solver β α) γ :=
  Exec.focus (·.workspace) (fun w s => { s with workspace := w }) act

/-- An operation of the engine alone. -/
def onEngine (act : Exec β γ) : Exec (Solver β α) γ := onWorkspace (Workspace.onEngine act)

/-! ### Building -/

/-- Rows and bounds are accepted in the first phase only. This comes before anything else in
    a call, so a finished solver refuses for its phase whatever the arguments are. -/
def ensureBuilding : Exec (Solver β α) Unit := do
  let s ← Exec.state
  if s.phase.isFinished then Exec.fail (.solverFinished s.phase)

/-- Add a constraint: the slack of the next row equals the combination of the
    problem variables with these coefficients. -/
def addConstraint (coeffs : Array α) : Exec (Solver β α) Unit := do
  ensureBuilding
  let s ← Exec.state
  let (row, tableau) ← Exec.check (s.workspace.tableau.addRow coeffs)
  Exec.update fun s => { s with workspace := { s.workspace with tableau := tableau } }
  Exec.emit (.constraintAdded row)

/-- Set or clear both bounds of a variable. The variable may be a slack, and this is how a
    constraint gets its bounds. -/
def setBounds [BoundStore β α] (var : Nat) (i : Interval α) : Exec (Solver β α) Unit := do
  ensureBuilding
  onEngine (BoundStore.setBounds var i)

/-- Set or clear the lower bound of a variable. -/
def setLower [BoundStore β α] (var : Nat) (x : Option α) : Exec (Solver β α) Unit := do
  ensureBuilding
  onEngine (BoundStore.setLower var x)

/-- Set or clear the upper bound of a variable. -/
def setUpper [BoundStore β α] (var : Nat) (x : Option α) : Exec (Solver β α) Unit := do
  ensureBuilding
  onEngine (BoundStore.setUpper var x)

/-! ### Observing -/

/-- Keep notices from now on, or stop keeping them. Notices that were kept stay until they
    are taken. -/
def observe (on : Bool) : Exec (Solver β α) Unit :=
  Exec.update fun s => { s with observed := on }

/-- Tell the observer, if there is one. Notices are kept in the order in which they are
    given until the caller takes them. -/
def notify (n : Notice) : Exec (Solver β α) Unit :=
  Exec.update fun s => if s.observed then { s with notices := s.notices.push n } else s

/-- The notices since they were last taken, which are then forgotten. -/
def takeNotices : Exec (Solver β α) (Array Notice) := do
  let s ← Exec.state
  Exec.update fun s => { s with notices := #[] }
  pure s.notices

end Solver

end BoundedSimplex
