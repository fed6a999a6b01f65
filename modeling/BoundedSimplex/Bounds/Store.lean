import BoundedSimplex.Correction
import BoundedSimplex.Exec

/-!
# Stores of Bounds

What the search asks of the place where bounds are kept.

A store holds, for a fixed number of variables, their bounds, values and
roles. Every access names a variable and fails if there is none of that
number; a store may have further reasons to fail, and may refuse to evaluate
the tests that only kernels evaluate.

## Main definitions

* `BoundStore`: The accesses.
* `BoundStore.ofPart`: A store that is a part of something larger.
* `Correction.apply`: A correction carried out on a store.
-/

namespace BoundedSimplex

/-- A place where bounds, values and roles are kept. There is one in the process and one on
    a device. The questions a search asks about a single variable are answered in the
    process only; on a device they are left to the kernels. -/
class BoundStore (σ : Type) (α : outParam Type) where
  /-- The number of variables. -/
  numVars : σ → Nat
  /-- The lower bound of a variable. -/
  lower : Nat → Exec σ (Option α)
  /-- The upper bound of a variable. -/
  upper : Nat → Exec σ (Option α)
  /-- Set or clear the lower bound. -/
  setLower : Nat → Option α → Exec σ Unit
  /-- Set or clear the upper bound. -/
  setUpper : Nat → Option α → Exec σ Unit
  /-- Set or clear both bounds, which are not compared with each other. -/
  setBounds : Nat → Interval α → Exec σ Unit
  /-- The value of a variable. -/
  assignment : Nat → Exec σ α
  /-- Overwrite the value of a variable. -/
  setAssignment : Nat → α → Exec σ Unit
  /-- The values of the first variables. -/
  assignments : Nat → Exec σ (Array α)
  /-- The role of a variable. -/
  role : Nat → Exec σ Role
  /-- Change the role of a variable. -/
  setRole : Nat → Role → Exec σ Unit
  /-- Whether a variable violates a bound by more than the tolerance. -/
  isBroken : Nat → Exec σ Bool
  /-- Whether a variable has room upwards. -/
  canIncrease : Nat → Exec σ Bool
  /-- Whether a variable has room downwards. -/
  canDecrease : Nat → Exec σ Bool
  /-- Add to the value of a variable. -/
  increase : Nat → α → Exec σ Unit
  /-- Subtract from the value of a variable. -/
  decrease : Nat → α → Exec σ Unit

/-- A store that is a part of something larger. An engine has its operations on bounds from
    the store inside of it in this way. -/
@[reducible] def BoundStore.ofPart {σ τ α : Type} [BoundStore σ α] (get : τ → σ)
    (set : σ → τ → τ) : BoundStore τ α where
  numVars t := numVars (get t)
  lower v := Exec.focus get set (lower v)
  upper v := Exec.focus get set (upper v)
  setLower v x := Exec.focus get set (setLower v x)
  setUpper v x := Exec.focus get set (setUpper v x)
  setBounds v i := Exec.focus get set (setBounds v i)
  assignment v := Exec.focus get set (assignment v)
  setAssignment v x := Exec.focus get set (setAssignment v x)
  assignments count := Exec.focus get set (assignments count)
  role v := Exec.focus get set (role v)
  setRole v r := Exec.focus get set (setRole v r)
  isBroken v := Exec.focus get set (isBroken v)
  canIncrease v := Exec.focus get set (canIncrease v)
  canDecrease v := Exec.focus get set (canDecrease v)
  increase v d := Exec.focus get set (increase v d)
  decrease v d := Exec.focus get set (decrease v d)

/-- Carry out a correction: the entering variable moves as its coefficient
    calls for, then the broken one by the distance to its bound. If the second
    move fails the first one stays. -/
def Correction.apply {σ α : Type} [Scalar α] [BoundStore σ α] (c : Correction α)
    (entering broken : Nat) (coeff : α) : Exec σ Unit := do
  match c.direction with
  | .increase =>
    BoundStore.increase entering (c.theta coeff)
    BoundStore.increase broken c.delta
  | .decrease =>
    BoundStore.decrease entering (c.theta coeff)
    BoundStore.decrease broken c.delta

end BoundedSimplex
