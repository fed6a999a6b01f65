/-!
# Phases of a Solver

A solver is built, then solved once, and then frozen.

Constraints and bounds are accepted in the first phase only. A call to solve
ends it, with a verdict or with an error, and no call leads back.

## Main definitions

* `Phase`: Where a solver stands.
* `Phase.isFinished`: Whether the first phase is over.
-/

namespace BoundedSimplex

/-- Where a solver stands. It moves once, out of the first phase, and never again. -/
inductive Phase where
  /-- Constraints and bounds are accepted. -/
  | building
  /-- A satisfying assignment was found. -/
  | sat
  /-- No assignment satisfies the constraints. -/
  | unsat
  /-- An error or the iteration limit ended the search without a verdict. -/
  | aborted
deriving DecidableEq

namespace Phase

/-- The name used in messages. -/
def label : Phase → String
  | .building => "Building"
  | .sat => "Sat"
  | .unsat => "Unsat"
  | .aborted => "Aborted"

/-- Every phase, in the order of declaration. -/
def all : List Phase := [.building, .sat, .unsat, .aborted]

/-- Whether the first phase is over, with or without a verdict. -/
def isFinished : Phase → Bool
  | .building => false
  | _ => true

/-- The answer of a solver that has one. -/
def verdict? : Phase → Option Bool
  | .sat => some true
  | .unsat => some false
  | _ => none

/-- The phase a verdict leads to. -/
def ofVerdict (sat : Bool) : Phase := if sat then .sat else .unsat

@[simp] theorem verdict?_ofVerdict (b : Bool) : (ofVerdict b).verdict? = some b := by
  cases b <;> rfl

@[simp] theorem isFinished_ofVerdict (b : Bool) : (ofVerdict b).isFinished = true := by
  cases b <;> rfl

end Phase

end BoundedSimplex
