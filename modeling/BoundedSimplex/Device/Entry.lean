import BoundedSimplex.Number.Decimal
import BoundedSimplex.Bounds.Interval

/-!
# Kernel Entry Points

The nine kernels of a search, and what they are given.

A kernel takes its scalars first and then its buffers, in a fixed order that
is the same for every family of devices, so that the engine can bind
arguments without knowing what it talks to. The arguments of each, scalars
before the bar:

* `check_bounds`: number of variables, offset, tolerance | lower, upper,
  bounded, values, flags, output
* `find_suitable`: number of variables, number of columns, broken, offset |
  tableau, lower, upper, bounded, values, flags, places, output
* `find_suitable_complete`: number of columns, broken, suitable | tableau,
  lower, upper, bounded, values, places
* `pivot_update_inner`, `pivot_update_column`: alpha, row, column, number of
  rows, number of columns | tableau
* `pivot_update_row`: alpha, row, column, number of columns | tableau
* `update_assignment`: number of columns, row | tableau, values, column
  variables, partial sums
* `reduce_partial_sums`: count | partial sums in, partial sums out
* `update_assignment_complete`: count, variable | partial sums, values

## Main definitions

* `Entry`: The kernels.
* `Entry.scalarCount`, `Entry.bufferCount`: How many arguments they take.
* `Arg`: An argument.
* `boundMask`: Which bounds a variable has, as a word.
-/

namespace BoundedSimplex

/-- The kernels of a search. Each has a name under which it is compiled, and a fixed number
    of scalars and of buffers. -/
inductive Entry where
  /-- Find the lowest broken basic variable of a chunk. -/
  | checkBounds
  /-- Find the lowest suitable nonbasic variable of a chunk. -/
  | findSuitable
  /-- Carry out the correction. -/
  | findSuitableComplete
  /-- Exchange: the cells away from the row and the column. -/
  | pivotUpdateInner
  /-- Exchange: the row. -/
  | pivotUpdateRow
  /-- Exchange: the column. -/
  | pivotUpdateColumn
  /-- Sum the products of a row, one sum for each workgroup. -/
  | updateAssignment
  /-- Sum partial sums, one sum for each workgroup. -/
  | reducePartialSums
  /-- Sum the last partial sums into a value. -/
  | updateAssignmentComplete
deriving DecidableEq

namespace Entry

/-- The name of the entry point in every kernel source. -/
def name : Entry → String
  | .checkBounds => "check_bounds"
  | .findSuitable => "find_suitable"
  | .findSuitableComplete => "find_suitable_complete"
  | .pivotUpdateInner => "pivot_update_inner"
  | .pivotUpdateRow => "pivot_update_row"
  | .pivotUpdateColumn => "pivot_update_column"
  | .updateAssignment => "update_assignment"
  | .reducePartialSums => "reduce_partial_sums"
  | .updateAssignmentComplete => "update_assignment_complete"

/-- Every kernel, in the order in which they are compiled. The first one that a device
    refuses is therefore always the same. -/
def all : List Entry :=
  [.checkBounds, .findSuitable, .findSuitableComplete, .pivotUpdateInner, .pivotUpdateRow,
    .pivotUpdateColumn, .updateAssignment, .reducePartialSums, .updateAssignmentComplete]

/-- The kernel of a name. -/
def ofName? (name : String) : Option Entry := all.find? (·.name == name)

/-- The number of scalars a kernel takes. They come before the buffers, so it is also where
    the buffers begin. -/
def scalarCount : Entry → Nat
  | .checkBounds => 3
  | .findSuitable => 4
  | .findSuitableComplete => 3
  | .pivotUpdateInner => 5
  | .pivotUpdateRow => 4
  | .pivotUpdateColumn => 5
  | .updateAssignment => 2
  | .reducePartialSums => 1
  | .updateAssignmentComplete => 2

/-- The number of buffers a kernel takes. -/
def bufferCount : Entry → Nat
  | .checkBounds => 6
  | .findSuitable => 8
  | .findSuitableComplete => 6
  | .pivotUpdateInner => 1
  | .pivotUpdateRow => 1
  | .pivotUpdateColumn => 1
  | .updateAssignment => 4
  | .reducePartialSums => 2
  | .updateAssignmentComplete => 2

/-- The number of arguments a kernel takes. -/
def arity (e : Entry) : Nat := e.scalarCount + e.bufferCount

end Entry

/-- An argument of a kernel. Scalars are words, whatever they stand for, and buffers are
    passed by number. -/
inductive Arg where
  /-- A whole number of 32 bits. -/
  | word (value : UInt32)
  /-- A number. -/
  | number (value : Binary32)
  /-- A buffer by its number. -/
  | buffer (id : Nat)
deriving DecidableEq

namespace Arg

/-- The word of a scalar. -/
def scalarBits? : Arg → Option UInt32
  | .word v => some v
  | .number v => some v.bits
  | .buffer _ => none

/-- The number of a buffer. -/
def buffer? : Arg → Option Nat
  | .buffer id => some id
  | _ => none

/-- The text of an argument in descriptions. -/
def text : Arg → String
  | .word v => s!"U32({v})"
  | .number v => s!"F32({v.marked})"
  | .buffer id => s!"Buffer(BufferId({id}))"

end Arg

/-- The bit of a bound mask that says there is a lower bound. -/
def hasLower : UInt32 := 1

/-- The bit of a bound mask that says there is an upper bound. -/
def hasUpper : UInt32 := 2

/-- The mask of an interval: one bit for each bound it has. The bounds themselves are in
    other buffers. -/
def boundMask {α : Type} (i : Interval α) : UInt32 :=
  (if i.lower.isSome then hasLower else 0) ||| (if i.upper.isSome then hasUpper else 0)

/-- The widest workgroup a kernel is written for. No launch is wider, whatever the device
    could run. -/
def maxKernelWorkgroup : Nat := 256

end BoundedSimplex
