import BoundedSimplex.Number.Scalar

/-!
# Binary32

Single precision numbers, held as the word that encodes them.

A number is its word, so that moving it between a table and the memory of a
device loses nothing, the sign of a zero and the payload of a NaN included.
The order is read off the word directly: the magnitude of an encoding grows
with the number, so comparing signed magnitudes compares numbers, and the two
zeros fall together.

Arithmetic rounds to nearest with ties to even. What the rounding leaves open
is which NaN comes out, and that is fixed here: a NaN operand is handed on
quieted, the first one if both are, and an operation that is invalid on
numbers yields `invalid`.

## Main definitions

* `Binary32`: A single precision number as its encoding.
* `Binary32.lt`, `Binary32.eq`: The comparisons, false on a NaN.
* `Binary32.arith`: An operation with the rule for NaN around it.

## Theorems

* `Binary32.not_lt_of_eq`: Equal numbers are not ordered.
-/

namespace BoundedSimplex

/-- A single precision number: one sign bit, eight exponent bits and twenty-three fraction
    bits, from the top. Two numbers are equal as values of this type if all their bits are,
    so the two zeros differ and what is no number equals itself. -/
structure Binary32 where
  /-- The encoding. -/
  bits : UInt32
deriving DecidableEq

namespace Binary32

/-- The encoding without its sign bit. -/
def magnitude (x : Binary32) : UInt32 := x.bits &&& 0x7fffffff

/-- The sign bit. -/
def isNegative (x : Binary32) : Bool := x.bits &&& 0x80000000 != 0

/-- A NaN has the largest exponent and a fraction other than zero. The sign bit does not
    matter. -/
def isNaN (x : Binary32) : Bool := decide (0x7f800000 < x.magnitude)

/-- The infinities and the NaNs share the largest exponent. -/
def isFinite (x : Binary32) : Bool := decide (x.magnitude < 0x7f800000)

/-- The same NaN with its quiet bit set. -/
def quiet (x : Binary32) : Binary32 := ⟨x.bits ||| 0x00400000⟩

/-- The NaN an invalid operation yields. -/
def invalid : Binary32 := ⟨0xffc00000⟩

/-- The NaN that stands for "not a number" where one is asked for by name. -/
def nan : Binary32 := ⟨0x7fc00000⟩

/-- The signed magnitude, which orders numbers as their values do. Both zeros
    have order zero. -/
def order (x : Binary32) : Int :=
  if x.isNegative then - (x.magnitude.toNat : Int) else x.magnitude.toNat

/-- Strictly below as numbers; false as soon as one side is a NaN. The two zeros are not
    below each other. -/
def lt (x y : Binary32) : Bool :=
  !x.isNaN && !y.isNaN && decide (x.order < y.order)

/-- Equal as numbers: the zeros are equal and a NaN equals nothing. -/
def eq (x y : Binary32) : Bool :=
  !x.isNaN && !y.isNaN && decide (x.order = y.order)

/-- The number as the machine's own single precision value. -/
def toFloat32 (x : Binary32) : Float32 := Float32.ofBits x.bits

/-- An operation on numbers, with the rule for NaN around it: the first NaN
    operand is handed on quieted, and an invalid operation yields `invalid`. -/
def arith (op : Float32 → Float32 → Float32) (x y : Binary32) : Binary32 :=
  if x.isNaN then x.quiet
  else if y.isNaN then y.quiet
  else
    -- Only here does the machine compute, and no operand is a NaN.
    let z : Binary32 := ⟨(op x.toFloat32 y.toFloat32).toBits⟩
    if z.isNaN then invalid else z

instance : Zero Binary32 := ⟨⟨0⟩⟩
instance : One Binary32 := ⟨⟨0x3f800000⟩⟩
instance : Add Binary32 := ⟨arith (· + ·)⟩
instance : Sub Binary32 := ⟨arith (· - ·)⟩
instance : Mul Binary32 := ⟨arith (· * ·)⟩
instance : Div Binary32 := ⟨arith (· / ·)⟩

/-- Negation flips the sign bit, of a NaN too. -/
instance : Neg Binary32 := ⟨fun x => ⟨x.bits ^^^ 0x80000000⟩⟩

/-- The absolute value clears the sign bit, of a NaN too. -/
def abs (x : Binary32) : Binary32 := ⟨x.magnitude⟩

instance : Inhabited Binary32 := ⟨0⟩

/-- Equal numbers are not ordered, so a coefficient that lies on one side of
    zero is not equal to zero. -/
theorem not_lt_of_eq {x y : Binary32} (h : x.eq y = true) : x.lt y = false := by
  simp only [eq, Bool.and_eq_true, decide_eq_true_eq] at h
  simp [lt, h.2]

end Binary32

end BoundedSimplex
