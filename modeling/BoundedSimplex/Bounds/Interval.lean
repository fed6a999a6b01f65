import BoundedSimplex.Number.Scalar

/-!
# Bounds of a Variable

Where a variable may lie, and how it can move.

Each variable has a lower and an upper bound, and either may be missing. A
missing bound is `none`; no number stands for it, so nothing can be near it.
The two bounds are not compared with each other. An empty interval is
allowed, and a variable in it violates one bound or the other.

A value within the tolerance of a bound counts as lying on it, from either
side, and is then not broken whatever the other bound says. Whether a
variable can move is asked without tolerance: one that lies on its bound has
no room left.

## Main definitions

* `Interval`: The bounds of a variable.
* `Interval.isBroken`: A bound is violated by more than the tolerance.
* `Interval.canIncrease`, `Interval.canDecrease`: There is room to move.
* `Interval.Contains`: Both bounds hold exactly.
* `Role`: Whether a variable owns a row or a column.
-/

namespace BoundedSimplex

/-- The bounds of a variable. Neither is asked to be below the other. -/
structure Interval (α : Type) where
  /-- The lower bound, if there is one. -/
  lower : Option α
  /-- The upper bound, if there is one. -/
  upper : Option α
deriving DecidableEq

namespace Interval

variable {α : Type} [Scalar α]

open Scalar

/-- The bounds a variable starts with: at least zero. Problem variables and slacks alike
    have them until a caller sets others. -/
def nonnegative : Interval α := ⟨some 0, none⟩

/-- A value is near a bound if it differs by less than the tolerance. With a tolerance of
    zero nothing is near, not even the bound itself. -/
def isNear (tolerance value bound : α) : Bool := lt (abs (value - bound)) tolerance

/-- The value violates a bound and is near neither. Being near one bound excuses a violation
    of the other one too. -/
def isBroken (i : Interval α) (tolerance value : α) : Bool :=
  !i.lower.any (isNear tolerance value) && !i.upper.any (isNear tolerance value)
    && (i.lower.any (lt value) || i.upper.any (gt value))

/-- The value is strictly below the upper bound, or there is none. No tolerance is allowed
    for: a variable on its bound has no room. -/
def canIncrease (i : Interval α) (value : α) : Bool := i.upper.all (lt value)

/-- The value is strictly above the lower bound, or there is none. No tolerance is allowed
    for here either. -/
def canDecrease (i : Interval α) (value : α) : Bool := i.lower.all (gt value)

/-- The value violates neither bound. This is what a caller means by within the bounds, and
    it is stricter than not being broken. -/
def Contains (i : Interval α) (value : α) : Prop :=
  (∀ l ∈ i.lower, lt value l = false) ∧ (∀ u ∈ i.upper, gt value u = false)

end Interval

/-- Whether a variable owns a row or a column of the tableau. The search moves nonbasic
    variables and lets the basic ones follow. -/
inductive Role where
  /-- The variable owns a row and follows from the columns. -/
  | basic
  /-- The variable owns a column and can be set. -/
  | nonbasic
deriving DecidableEq

namespace Role

/-- The name of the role. -/
def name : Role → String
  | .basic => "basic"
  | .nonbasic => "nonbasic"

/-- The word that stands for the role in the memory of a device. Memory can hold other words
    as well, and a kernel that looks for one of the two roles passes over them. -/
def flag : Role → UInt32
  | .basic => 1
  | .nonbasic => 0

/-- The role of a word. Every word but the one for a basic variable stands
    for a nonbasic one. -/
def ofFlag (flag : UInt32) : Role := if flag = Role.basic.flag then .basic else .nonbasic

@[simp] theorem ofFlag_flag (r : Role) : ofFlag r.flag = r := by
  cases r <;> decide

/-- The role of a variable before the first pivot: the problem variables come
    first and own the columns. -/
def initial (numCols var : Nat) : Role := if var < numCols then .nonbasic else .basic

end Role

end BoundedSimplex
