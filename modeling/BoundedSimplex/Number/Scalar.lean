/-!
# Scalars

The arithmetic the search runs on.

The search compares, adds, multiplies and divides, and nothing else, so it can
be read over any type that offers those operations. Two readings matter. Over
`Binary32` it is the solver as it runs, with every rounding in place. Over the
rational numbers the same definitions compute exactly, which is the reading in
which a verdict can be compared with the equations it is about.

The comparisons are functions into `Bool` and not order relations, because a
NaN is neither below, above nor equal to anything, and the search has to take
the branch that this implies.

## Main definitions

* `Scalar`: The operations the search needs.
* `Scalar.gt`: The comparison with its sides exchanged.
-/

namespace BoundedSimplex

/-- The arithmetic and the comparisons the search needs. Nothing is assumed
    about them: rounding, overflow and values that compare with nothing are
    all allowed. -/
class Scalar (α : Type) extends Zero α, One α, Add α, Sub α, Mul α, Div α, Neg α where
  /-- The absolute value. -/
  abs : α → α
  /-- Strictly below. -/
  lt : α → α → Bool
  /-- Equal as numbers, which need not be equal as representations. -/
  eq : α → α → Bool
  /-- Neither infinite nor undefined. -/
  isFinite : α → Bool
  /-- The decimal text used in reports and error messages. -/
  text : α → String

namespace Scalar

variable {α : Type} [Scalar α]

/-- Strictly above: the comparison with its sides exchanged. With a NaN on either side it is
    false like the other one. -/
def gt (x y : α) : Bool := lt y x

end Scalar

/-- Exact arithmetic. A quotient by zero is zero, as everywhere in the
    library of rational numbers; the search never divides by zero. -/
instance : Scalar Rat where
  toZero := @Zero.ofOfNat0 Rat Rat.instOfNat
  toOne := @One.ofOfNat1 Rat Rat.instOfNat
  abs := Rat.abs
  lt x y := decide (x < y)
  eq x y := decide (x = y)
  isFinite _ := true
  text x := toString x

end BoundedSimplex
