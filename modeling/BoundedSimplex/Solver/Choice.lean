import BoundedSimplex.Solver.Run

/-!
# Choosing an Engine

Making a solver by naming the engine and the device it should run on.

Every family has a single platform, and the host family a single device; the
other families have no device here. The dimensions and the configuration are
looked at before any of this.

## Main definitions

* `Selector`: An engine and a device.
* `Solver.select`: A solver on the engine that was named.
-/

namespace BoundedSimplex

/-- An engine and a device, as a caller names them. Most pairs have nothing behind them and
    are refused. -/
inductive Selector where
  /-- Tables of the process. -/
  | sequential
  /-- A device of a family, by its platform and its number there. -/
  | parallel (family : Family) (platform device : Nat)

/-- A solver on one engine or the other. The two have different types, so a caller who
    decides at run time needs a sum of them. -/
inductive ChosenSolver where
  /-- A solver on tables of the process. -/
  | sequential (solver : Solver (Sequential Binary32) Binary32)
  /-- A solver together with the device it lives on. -/
  | parallel (solver : Solver (Attached Parallel) Binary32)

namespace Solver

/-- The device of a family, by its platform and its number there. The platform is looked at
    first, and only one family has a device at all. -/
def openDevice (family : Family) (platform device : Nat) : Except Error Device :=
  if platform ≠ 0 then .error (.noPlatform family platform)
  else match family with
    | .host => if device ≠ 0 then .error (.noHostDevice device) else .ok (.ofLimits {})
    | family => .error (.noRuntime family)

/-- A solver on the engine that was named. For a device the input is checked before the
    device is looked for. -/
def select {σ : Type} (maxRows numCols : Nat) (selector : Selector) (config : Config Binary32) :
    Exec σ ChosenSolver := do
  match selector with
  | .sequential =>
    let s ← sequential maxRows numCols config
    pure (.sequential s)
  | .parallel family platform device =>
    Exec.check (checkInput maxRows numCols config)
    let d ← Exec.check (openDevice family platform device)
    let (s, d) ← Exec.aside d (parallel maxRows numCols config)
    pure (.parallel (s.attach d))

end Solver

end BoundedSimplex
