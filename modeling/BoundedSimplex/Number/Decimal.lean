import BoundedSimplex.Number.Binary32

/-!
# Decimal Text

The shortest decimal that reads back as the same number.

A finite number other than zero is `m * 2 ^ q` for a whole `m`, and the
decimals that round to it fill an interval around it: half a unit upwards,
half a unit downwards, or a quarter when the number is the lowest of its
power of two, where the numbers below are twice as dense. The ends belong to
the interval exactly when `m` is even, since a tie rounds to even.

For one digit, two digits and so on, the two decimals of that length next to
the number are tried. The first length at which one of them lies in the
interval wins; if both do, the nearer one is taken, and a tie goes away from
zero. Nine digits always suffice.

Everything is done on whole numbers. The number and the ends of its interval
are put over one denominator, so that no step rounds.

## Main definitions

* `Binary32.Scaled`: A positive number and its interval over one denominator.
* `Digits`: A whole number of units of a power of ten.
* `Binary32.shortest`: The shortest decimal of a positive finite number.
* `Binary32.plain`: The text used in reports: positional, whole numbers
  without a point.
* `Binary32.marked`: The text used in descriptions: always recognisable as a
  fraction, in powers of ten when very large or very small.
-/

namespace BoundedSimplex

/-- The decimal `digits * 10 ^ exponent`. The digits are a number and not a list, so that
    leading zeros cannot occur. -/
structure Digits where
  /-- The digits as a whole number. -/
  digits : Nat
  /-- The power of ten that the last digit counts. -/
  exponent : Int

namespace Digits

/-- The text of the digits alone. -/
def figures (d : Digits) : String := toString d.digits

/-- The position of the point, counted from the first digit. -/
def point (d : Digits) : Int := d.figures.length + d.exponent

private def zeros (n : Nat) : String := String.ofList (List.replicate n '0')

/-- Positional text: zeros fill the gap to the point on either side, and a
    whole number has no point. -/
def positional (d : Digits) : String :=
  if 0 ≤ d.exponent then d.figures ++ zeros d.exponent.toNat
  else if d.point ≤ 0 then "0." ++ zeros (-d.point).toNat ++ d.figures
  else
    let places := d.point.toNat
    String.ofList (d.figures.toList.take places) ++ "."
      ++ String.ofList (d.figures.toList.drop places)

/-- Scientific text: one digit before the point, and the power of ten after
    an `e`. -/
def scientific (d : Digits) : String :=
  let rest := d.figures.toList.drop 1
  String.ofList (d.figures.toList.take 1)
    ++ (if rest.isEmpty then "" else "." ++ String.ofList rest)
    ++ "e" ++ toString (d.point - 1)

end Digits

namespace Binary32

/-- A positive number and the interval of decimals that round to it, over one denominator.
    All comparisons are then between natural numbers. -/
structure Scaled where
  /-- The numerator of the number. -/
  value : Nat
  /-- The numerator of the lower end. -/
  low : Nat
  /-- The numerator of the upper end. -/
  high : Nat
  /-- The common denominator. -/
  denominator : Nat
  /-- Whether the ends round to the number as well. -/
  closed : Bool

/-- The leading bit of a significand, just above the fraction. -/
def leadingBit : Nat := 0x800000

/-- The exponent field. -/
private def exponentField (x : Binary32) : Nat := x.magnitude.toNat / leadingBit

/-- The whole number `m` of `m * 2 ^ q`, with its leading bit. -/
def significand (x : Binary32) : Nat :=
  let fraction := x.magnitude.toNat % leadingBit
  if x.exponentField = 0 then fraction else fraction + leadingBit

/-- The power of two `q` of `m * 2 ^ q`. -/
def exponent (x : Binary32) : Int := max x.exponentField 1 - 150

/-- A number of quarter units `2 ^ (q - 2)`, so that half and quarter units
    are whole. -/
def scaled (x : Binary32) : Scaled :=
  let m := x.significand
  let below := if m = leadingBit ∧ 1 < x.exponentField then 1 else 2
  let up := Nat.pow 2 (x.exponent - 2).toNat
  { value := 4 * m * up
    low := (4 * m - below) * up
    high := (4 * m + 2) * up
    denominator := Nat.pow 2 (2 - x.exponent).toNat
    closed := m % 2 == 0 }

namespace Scaled

/-- Whether the decimal `d` rounds to the number. -/
def isReadBack (s : Scaled) (d : Digits) : Bool :=
  let mine := d.digits * Nat.pow 10 d.exponent.toNat * s.denominator
  let unit := Nat.pow 10 (-d.exponent).toNat
  if s.closed then s.low * unit ≤ mine && mine ≤ s.high * unit
  else s.low * unit < mine && mine < s.high * unit

/-- The number of digits before the point, or minus the number of zeros that
    follow the point, found by trying powers of ten from the top. -/
def width (s : Scaled) : Int :=
  let whole := s.value / s.denominator
  let leading := (List.range 64).takeWhile (fun j => s.value * Nat.pow 10 (j + 1) < s.denominator)
  if 0 < whole then (toString whole).length else -(leading.length : Int)

/-- The decimal of `n` digits nearest to the number among its two neighbours
    of that length, if one of them rounds to the number. -/
def nearest? (s : Scaled) (n : Nat) : Option Digits :=
  let exponent := s.width - n
  let numerator := s.value * Nat.pow 10 (-exponent).toNat
  let denominator := s.denominator * Nat.pow 10 exponent.toNat
  let below : Digits := ⟨numerator / denominator, exponent⟩
  -- One more than `99…9` is a single digit further up.
  let above : Digits :=
    if below.digits + 1 = Nat.pow 10 n then ⟨1, exponent + n⟩
    else ⟨below.digits + 1, exponent⟩
  let rest := numerator % denominator
  match s.isReadBack below, s.isReadBack above with
  | true, true => some (if denominator ≤ 2 * rest then above else below)
  | true, false => some below
  | false, true => some above
  | false, false => none

end Scaled

/-- The shortest decimal that reads back as the positive finite number `x`. Of those with as
    many digits it is the one closest to `x`. -/
def shortest (x : Binary32) : Digits :=
  let s := x.scaled
  ((List.range 9).findSome? fun n => s.nearest? (n + 1)).getD ⟨0, 0⟩

/-- The text of everything that has no digits, or the sign in front of the
    text that `write` gives to the digits. -/
private def signed (x : Binary32) (write : Digits → String) : String :=
  if x.isNaN then "NaN"
  else
    let sign := if x.isNegative then "-" else ""
    if x.isFinite then
      sign ++ write (if x.magnitude = 0 then ⟨0, 0⟩ else x.shortest)
    else sign ++ "inf"

/-- The text used in reports and messages: positional whatever the size, a
    whole number without a point, a zero with its sign. -/
def plain (x : Binary32) : String := x.signed Digits.positional

/-- The text used in descriptions of arguments: a whole number keeps one
    decimal, and below `0.0001` or from `10 ^ 16` on powers of ten are
    written. -/
def marked (x : Binary32) : String :=
  x.signed fun d =>
    if d.digits ≠ 0 ∧ (d.point ≤ -4 ∨ 17 ≤ d.point) then d.scientific
    else if 0 ≤ d.exponent then d.positional ++ ".0"
    else d.positional

instance : Scalar Binary32 where
  abs := abs
  lt := lt
  eq := eq
  isFinite := isFinite
  text := plain

end Binary32

end BoundedSimplex
