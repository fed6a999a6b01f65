import BoundedSimplex.Device.Family
import BoundedSimplex.Solver.Phase

/-!
# Errors

What can go wrong while a system is built or solved.

An unsatisfiable system is not an error: it is one of the two verdicts. The
errors are a misuse of the interface, a limit reached, or a device that
refused a request. Each is a cause with its data; the wording is in `message`
and, for causes whose data is a sentence, in the named constructions that
follow it, so that no other module writes prose.

## Main definitions

* `Error`: The causes.
* `Error.message`: Their wording.
* `Error.isConfig`: Whether the caller asked for something impossible.
* `Error.checkIndex`: The guard in front of every indexed access.
-/

namespace BoundedSimplex

/-- What can go wrong. Each cause carries what its message shows, so that the wording is a
    function of the error and nothing else. -/
inductive Error where
  /-- A row does not have one coefficient for each column. -/
  | constraintWidth (expected got : Nat)
  /-- Every row of the tableau is taken. -/
  | capacityExceeded (capacity : Nat)
  /-- An argument has a value that makes no sense. -/
  | invalidArgument (argument reason : String)
  /-- A family of devices cannot be used. -/
  | unsupportedBackend (family : Family) (reason : String)
  /-- An operation that this storage does not offer. -/
  | unsupported (operation reason : String)
  /-- An index at or beyond the size of what it indexes. -/
  | indexOutOfBounds (index size : Nat)
  /-- The solver is finished and its state is frozen. -/
  | solverFinished (phase : Phase)
  /-- The iteration limit was reached before a verdict. -/
  | iterationLimit (limit : Nat)
  /-- A kernel source has no entry point of that name. -/
  | kernelNotFound (source entry : String)
  /-- A launch was refused. -/
  | kernelLaunch (kernel reason : String)
  /-- A device refused an allocation or a transfer. -/
  | backend (reason : String)
  /-- An operation was used in a state that does not allow it. -/
  | internal (reason : String)
deriving DecidableEq

namespace Error

/-- The name of the cause. -/
def kind : Error → String
  | .constraintWidth .. => "ConstraintWidth"
  | .capacityExceeded .. => "CapacityExceeded"
  | .invalidArgument .. => "InvalidArgument"
  | .unsupportedBackend .. => "UnsupportedBackend"
  | .unsupported .. => "Unsupported"
  | .indexOutOfBounds .. => "IndexOutOfBounds"
  | .solverFinished .. => "SolverFinished"
  | .iterationLimit .. => "IterationLimit"
  | .kernelNotFound .. => "KernelNotFound"
  | .kernelLaunch .. => "KernelLaunch"
  | .backend .. => "Backend"
  | .internal .. => "Internal"

/-- The wording. What the error carries is in it. -/
def message : Error → String
  | .constraintWidth expected got =>
    s!"Invalid constraint size: expected {expected} coefficients, got {got}"
  | .capacityExceeded capacity =>
    s!"Unable to add more constraints: tableau capacity of {capacity} rows reached"
  | .invalidArgument argument reason => s!"Invalid argument '{argument}': {reason}"
  | .unsupportedBackend family reason => s!"Unsupported backend {family.label}: {reason}"
  | .unsupported operation reason => s!"Unsupported operation '{operation}': {reason}"
  | .indexOutOfBounds index size => s!"Index {index} out of bounds for size {size}"
  | .solverFinished phase => s!"Solver is in terminal state {phase.label}"
  | .iterationLimit limit => s!"Iteration limit of {limit} pivots reached without a verdict"
  | .kernelNotFound source entry => s!"Kernel '{entry}' not found in source '{source}'"
  | .kernelLaunch kernel reason => s!"Kernel '{kernel}' launch failed: {reason}"
  | .backend reason => s!"Backend error: {reason}"
  | .internal reason => s!"Internal error: {reason}"

/-- Whether the caller asked for something impossible, as opposed to a failure on the way.
    Only errors of the first kind depend on the arguments alone. -/
def isConfig : Error → Bool
  | .constraintWidth .. | .capacityExceeded .. | .invalidArgument .. | .unsupportedBackend .. =>
    true
  | _ => false

/-- An index has to be below the size of what it indexes. The error carries both, so a
    caller can tell which of several checks failed. -/
def checkIndex (index size : Nat) : Except Error Unit :=
  if index < size then .ok () else .error (.indexOutOfBounds index size)

@[simp] theorem checkIndex_eq_ok_iff {index size : Nat} :
    checkIndex index size = .ok () ↔ index < size := by
  unfold checkIndex
  split <;> simp_all

/-! ### Dimensions and configuration -/

/-- A tableau without room for a constraint. -/
def noRows : Error :=
  .invalidArgument "max_rows" "a solver needs room for at least one constraint"

/-- A tableau without a problem variable. -/
def noColumns : Error :=
  .invalidArgument "num_cols" "a solver needs at least one problem variable"

/-- More variables than a word can number. -/
def tooManyVariables : Error :=
  .invalidArgument "max_rows" "variable ids must fit in 32 bits"

/-- A tolerance below zero, infinite or undefined, by its text. -/
def badTolerance (text : String) : Error :=
  .invalidArgument "epsilon" s!"must be finite and non-negative, got {text}"

/-- A cap that allows no workgroup at all. -/
def zeroWorkgroupCap : Error := .invalidArgument "max_workgroup_size" "must be at least 1"

/-! ### Choice of a device -/

/-- A platform beyond the only one of its family. -/
def noPlatform (family : Family) (platform : Nat) : Error :=
  .unsupportedBackend family s!"platform {platform} does not exist"

/-- A device beyond the only one of the host family. -/
def noHostDevice (device : Nat) : Error :=
  .unsupportedBackend .host s!"host device {device} does not exist"

/-- A family without a device behind it. -/
def noRuntime : Family → Error
  | .webGpu => .unsupportedBackend .webGpu "built without the `wgpu` feature"
  | .cuda => .unsupportedBackend .cuda "built without the `cuda` feature"
  | family => .unsupportedBackend family "no OpenCL runtime is available"

/-- A device that reports that it runs no workgroup at all. -/
def zeroWorkgroup (info : DeviceInfo) : Error :=
  .unsupportedBackend info.family s!"device '{info.name}' reports a zero workgroup size"

/-- A source for another family of devices. -/
def foreignSource (source : KernelSource) : Error :=
  .unsupportedBackend source.family s!"host device cannot run '{source.name}'"

/-! ### Device memory and kernels -/

/-- The tests on bounds kept on a device are made by kernels only. -/
def deviceResident (operation : String) : Error :=
  .unsupported operation "bounds are device resident; evaluated by kernels only"

/-- A number that stands for no buffer in use. -/
def unknownBuffer (buffer : Nat) : Error := .backend s!"unknown host buffer {buffer}"

/-- A number that stands for no kernel in use. -/
def unknownKernel (kernel : Nat) : Error := .backend s!"unknown kernel id {kernel}"

/-- A transfer that is not made of whole words or leaves its buffer. -/
def badTransfer (length offset buffer size : Nat) : Error :=
  .backend s!"transfer of {length} bytes at offset {offset} outside host buffer {buffer} of {size} bytes"

/-- A request that was refused on purpose. -/
def injected (call : String) (count : Nat) : Error :=
  .backend s!"injected {call} failure {count}"

/-! ### Launches -/

/-- A launch without work items, by its text. -/
def emptyDimension (kernel size : String) : Error :=
  .kernelLaunch kernel s!"empty launch dimension: {size}"

/-- A workgroup wider than the device allows. -/
def wideWorkgroup (kernel : String) (items limit : Nat) : Error :=
  .kernelLaunch kernel s!"workgroup of {items} items exceeds device limit {limit}"

/-- An argument that was never bound. -/
def unsetArgument (kernel : String) (index : Nat) : Error :=
  .kernelLaunch kernel s!"argument {index} unset"

/-- A buffer bound in the place of a scalar. -/
def scalarExpected (kernel : String) (index : Nat) : Error :=
  .kernelLaunch kernel s!"argument {index} must be a scalar"

/-- A scalar bound in the place of a buffer. -/
def bufferExpected (kernel : String) (index : Nat) : Error :=
  .kernelLaunch kernel s!"argument {index} must be a buffer"

/-- A buffer with fewer elements than the kernel refers to. -/
def shortBuffer (kernel what : String) (size required : Nat) : Error :=
  .kernelLaunch kernel s!"{what} holds {size} elements, kernel needs {required}"

/-- A workgroup that cannot be halved down to one item. -/
def unevenWorkgroup (kernel : String) (width : Nat) : Error :=
  .kernelLaunch kernel s!"reduction workgroup size {width} is not a power of two"

/-- More partial sums than a single workgroup can add. -/
def tooManyPartials (kernel : String) (count width : Nat) : Error :=
  .kernelLaunch kernel s!"{count} partial sums do not fit one workgroup of {width}"

/-! ### Order of operations -/

/-- An operation on a device that has no tableau yet. -/
def notPrepared : Error := .internal "parallel backend used before prepare"

/-- An exchange at a cell that is zero. -/
def zeroPivot (row col : Nat) : Error := .internal s!"zero pivot element at ({row}, {col})"

end Error

end BoundedSimplex
