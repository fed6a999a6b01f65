import BoundedSimplex.Shader.Body
import BoundedSimplex.Device.Entry

/-!
# Shader Modules

The text of a WGSL module for one kernel and one shape of workgroup.

A module has one entry point. Its buffers are bound in the order of the
kernel's arguments, from binding zero on, and the scalars follow in a uniform
block of eight words. The shape of the workgroup is written into the module,
so there is a module for every kernel and shape.

## Main definitions

* `Shader.bindings`: The buffers of a kernel with their types.
* `Shader.source`: The text of a module.
-/

namespace BoundedSimplex

namespace Shader

/-- The type of the elements of a buffer. All of them are 32 bits wide, so the type says how
    a word is read and not how long it is. -/
inductive Element where
  /-- A single precision number. -/
  | number
  /-- A word. -/
  | word
  /-- A word that several work items lower at once. -/
  | sharedWord

/-- The name of a type of elements. -/
def Element.text : Element → String
  | .number => "f32"
  | .word => "u32"
  | .sharedWord => "atomic<u32>"

/-- The number of words in the uniform block. -/
def paramWords : Nat := 8

/-- The buffers of a kernel, in the order of its arguments. -/
def bindings : Entry → List (String × Element)
  | .checkBounds =>
    [("lower", .number), ("upper", .number), ("bounded", .word), ("assigns", .number),
      ("flags", .word), ("output", .sharedWord)]
  | .findSuitable =>
    [("tableau", .number), ("lower", .number), ("upper", .number), ("bounded", .word),
      ("assigns", .number), ("flags", .word), ("var_to_tableau", .word), ("output", .sharedWord)]
  | .findSuitableComplete =>
    [("tableau", .number), ("lower", .number), ("upper", .number), ("bounded", .word),
      ("assigns", .number), ("var_to_tableau", .word)]
  | .pivotUpdateInner | .pivotUpdateRow | .pivotUpdateColumn => [("tableau", .number)]
  | .updateAssignment =>
    [("tableau", .number), ("assigns", .number), ("col_to_var", .word),
      ("partials_out", .number)]
  | .reducePartialSums => [("partials_in", .number), ("partials_out", .number)]
  | .updateAssignmentComplete => [("partials_in", .number), ("assigns", .number)]

/-- The entry point of a kernel and the functions it calls. -/
def blocks : Entry → List (List String)
  | .checkBounds => [Body.boundHelpers, Body.checkBounds]
  | .findSuitable => [Body.boundHelpers, Body.findSuitable]
  | .findSuitableComplete => [Body.boundHelpers, Body.findSuitableComplete]
  | .pivotUpdateInner => [Body.pivotUpdateInner]
  | .pivotUpdateRow => [Body.pivotUpdateRow]
  | .pivotUpdateColumn => [Body.pivotUpdateColumn]
  | .updateAssignment => [Body.treeReduce, Body.updateAssignment]
  | .reducePartialSums => [Body.treeReduce, Body.reducePartialSums]
  | .updateAssignmentComplete => [Body.treeReduce, Body.updateAssignmentComplete]

/-- The declarations of buffers from a binding on. -/
def declarations (first : Nat) : List (String × Element) → List String
  | [] => []
  | (name, element) :: rest =>
    s!"@group(0) @binding({first}) var<storage, read_write> {name}: array<{element.text}>;"
      :: declarations (first + 1) rest

/-- The lines of the module for a kernel and a workgroup of `x` by `y` items.
    A blank line comes in front of every block. -/
def lines (e : Entry) (x y : Nat) : List String :=
  let buffers := bindings e
  [s!"const WG_X: u32 = {x}u;", s!"const WG_Y: u32 = {y}u;", ""]
    ++ declarations 0 buffers
    ++ [s!"@group(0) @binding({buffers.length}) var<uniform> params: Params;"]
    ++ (Body.params :: blocks e).flatMap fun block => "" :: block

/-- The text of the module for a kernel and a workgroup of `x` by `y` items. -/
def source (e : Entry) (x y : Nat) : String := String.join ((lines e x y).map (· ++ "\n"))

end Shader

end BoundedSimplex
