import BoundedSimplex.Bounds.Interval

/-!
# Correcting a Broken Variable

How far a broken variable has to move, and which columns can move it.

A broken variable is taken exactly to the bound it violates. It owns a row,
so it moves only if some column variable does, and by the coefficient of that
column times as much. A column variable can take part if it has room in the
direction that its coefficient calls for; a zero coefficient calls for none.

If both bounds are violated, which happens when the interval is empty, the
lower one is taken.

## Main definitions

* `Correction`: A direction and a distance.
* `Correction.ofBroken`: The correction of a broken value.
* `Correction.accepts`: Whether a column variable can take part.
* `Correction.theta`: How far the column variable moves.
* `Correction.shift`: A value moved by the correction.

## Theorems

* `Correction.accepts_iff`: A column is accepted exactly when its variable
  has room in the direction its coefficient calls for.
-/

namespace BoundedSimplex

/-- The direction a broken variable has to move. There is one for each bound it can violate. -/
inductive Direction where
  /-- Up to the lower bound. -/
  | increase
  /-- Down to the upper bound. -/
  | decrease
deriving DecidableEq

/-- The name of the direction. -/
def Direction.name : Direction → String
  | .increase => "increase"
  | .decrease => "decrease"

/-- How a broken variable gets back to the bound it violates. The distance is never negative
    in a correction that is made, so the direction has to be kept beside it. -/
structure Correction (α : Type) where
  /-- The direction it has to move. -/
  direction : Direction
  /-- The distance to the bound. -/
  delta : α

namespace Correction

variable {α : Type} [Scalar α]

open Scalar

/-- The correction of a value outside its bounds: up if it is below the lower bound, down to
    the upper bound otherwise. If the bounds exclude each other a value can be outside both,
    and then the lower one is taken. -/
def ofBroken (i : Interval α) (value : α) : Correction α :=
  match i.lower.filter (lt value) with
  | some l => ⟨.increase, l - value⟩
  | none => ⟨.decrease, (i.upper.map (value - ·)).getD 0⟩

/-- Whether a column with this coefficient can take part, when its variable can be increased
    or decreased as stated. A positive coefficient moves both variables the same way, a
    negative one moves them in opposite ways, and zero does not move the broken one at all. -/
def accepts (c : Correction α) (coeff : α) (increasable decreasable : Bool) : Bool :=
  match c.direction with
  | .increase => (increasable && gt coeff 0) || (decreasable && lt coeff 0)
  | .decrease => (increasable && lt coeff 0) || (decreasable && gt coeff 0)

/-- How far the column variable moves, signed by its coefficient. It is in the direction of
    the correction for a positive coefficient and against it for a negative one. -/
def theta (c : Correction α) (coeff : α) : α := c.delta / coeff

/-- A value moved by some amount in the direction of the correction. A downward correction
    subtracts it. -/
def shift (c : Correction α) (value amount : α) : α :=
  match c.direction with
  | .increase => value + amount
  | .decrease => value - amount

/-- A column is accepted exactly when its variable has room in the direction
    that its coefficient and the direction of the correction call for. -/
theorem accepts_iff {c : Correction α} {coeff : α} {inc dec : Bool} :
    c.accepts coeff inc dec = true ↔
      (inc = true ∧ (match c.direction with
        | .increase => gt coeff 0 | .decrease => lt coeff 0) = true) ∨
      (dec = true ∧ (match c.direction with
        | .increase => lt coeff 0 | .decrease => gt coeff 0) = true) := by
  obtain ⟨direction, delta⟩ := c
  cases direction <;> simp [accepts]

end Correction

end BoundedSimplex
