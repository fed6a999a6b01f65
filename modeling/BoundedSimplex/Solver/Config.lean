import BoundedSimplex.Error
import BoundedSimplex.Number.Decimal

/-!
# Configuration

What a caller can choose about a search.

## Main definitions

* `Config`: The choices.
* `Config.standard`: What is chosen for a caller who chooses nothing.
* `Config.validate`: The choices that make sense.
-/

namespace BoundedSimplex

/-- What a caller can choose about a search. The choices are checked before an engine is
    made. -/
structure Config (α : Type) where
  /-- The distance within which a value counts as lying on a bound. -/
  tolerance : α
  /-- The number of pivots after which to give up. -/
  maxIterations : Option Nat
  /-- The widest workgroup to use, rounded down to a power of two. -/
  maxWorkgroupSize : Option Nat

namespace Config

/-- A tolerance of one millionth and no limits. It always passes the checks. -/
def standard : Config Binary32 := ⟨⟨0x358637bd⟩, none, none⟩

/-- The tolerance has to be finite and at least zero, and a workgroup has to
    have an item. -/
def validate {α : Type} [Scalar α] (c : Config α) : Except Error Unit :=
  if !Scalar.isFinite c.tolerance || Scalar.lt c.tolerance 0 then
    .error (.badTolerance (Scalar.text c.tolerance))
  else if c.maxWorkgroupSize = some 0 then .error .zeroWorkgroupCap
  else .ok ()

end Config

end BoundedSimplex
