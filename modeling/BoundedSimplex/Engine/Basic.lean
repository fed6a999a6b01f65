import BoundedSimplex.Bounds.Store
import BoundedSimplex.Tableau.Matrix
import BoundedSimplex.Tableau.Basis

/-!
# Engines

The four operations of a search, and where they work.

The search itself is the same whatever carries it out: find the lowest broken
variable, find the lowest variable that can correct it, exchange the two, and
recompute the values. An engine is something that can do these four, together
with the store of bounds it works on. It works on the tableau and the basis
of the search; one that keeps a copy of them elsewhere is given the chance to
make it before the first iteration.

## Main definitions

* `Workspace`: The tableau, the basis and the engine.
* `Engine`: The operations.
-/

namespace BoundedSimplex

/-- What the operations of a search work on. An engine may hold copies of tableau and basis
    elsewhere, and the ones here are then what the process knows. -/
structure Workspace (β α : Type) where
  /-- The coefficients as the process knows them. -/
  tableau : Tableau α
  /-- The owners of rows and columns. -/
  basis : Basis
  /-- The engine with its store of bounds. -/
  engine : β

namespace Workspace

variable {β α γ : Type}

/-- An operation of the engine alone. The tableau and the basis are out of its reach. -/
def onEngine (act : Exec β γ) : Exec (Workspace β α) γ :=
  Exec.focus (·.engine) (fun e w => { w with engine := e }) act

end Workspace

/-- The operations of a search. A search is written once, over these, and differs between
    engines in nothing else. -/
class Engine (β : Type) (α : outParam Type) extends BoundStore β α where
  /-- The name of the engine in reports and events. -/
  name : β → String
  /-- Make ready for the first iteration. -/
  prepare : Exec (Workspace β α) Unit
  /-- The lowest broken basic variable. -/
  checkBounds : Exec (Workspace β α) (Option Nat)
  /-- The lowest nonbasic variable that can correct a broken one. If there is
      one the correction is carried out. -/
  findSuitable : Nat → Exec (Workspace β α) (Option Nat)
  /-- Exchange a basic variable, which leaves, with a nonbasic one, which
      enters. -/
  pivot : Nat → Nat → Exec (Workspace β α) Unit
  /-- Recompute the basic variables of all rows that are taken. -/
  updateAssignment : Exec (Workspace β α) Unit
  /-- A coefficient by row and column, as the engine has it now. -/
  entry : Nat → Nat → Exec (Workspace β α) α

end BoundedSimplex
