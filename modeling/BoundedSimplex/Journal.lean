import BoundedSimplex.Number.Decimal
import BoundedSimplex.Device.Launch

/-!
# The Journal

What happened, in order.

Everything the library does that someone watching it might care about leaves
an event: a solver was created, a variable was found broken, a kernel was
launched. An event is data. It has a level of detail, a message and named
fields, and which of them are shown is decided by whoever reads the journal.

The events come from three places that know nothing of each other, the search,
the dispatching engine and the device, and the journal is the one order in
which they occurred.

## Main definitions

* `Level`: How detailed an event is.
* `Event`: What can happen.
* `Field`: The value of a field.
* `Event.level`, `Event.message`, `Event.fields`: An event as it is shown.
* `Journal.upTo`: The events of at most some detail.
-/

namespace BoundedSimplex

/-- How detailed an event is, from the most severe. -/
inductive Level where
  /-- A search that failed. -/
  | warn
  /-- The beginning and the end of a search. -/
  | info
  /-- The course of a search. -/
  | debug
  /-- Single requests to a device. -/
  | trace
deriving DecidableEq

namespace Level

/-- The name of the level in a journal. -/
def label : Level → String
  | .warn => "WARN"
  | .info => "INFO"
  | .debug => "DEBUG"
  | .trace => "TRACE"

/-- How many levels are more severe. -/
def detail : Level → Nat
  | .warn => 0
  | .info => 1
  | .debug => 2
  | .trace => 3

end Level

/-- What can happen. The search reports its course, the engine its launches, and the host
    what it is asked to do; a journal has all three, in the order in which they came about. -/
inductive Event where
  /-- A solver was put together. -/
  | solverCreated (maxRows numCols : Nat) (engine : String)
  /-- A row was accepted. -/
  | constraintAdded (row : Nat)
  /-- A search began. -/
  | solveStarted (rows cols : Nat) (engine : String)
  /-- The lowest broken basic variable was found. -/
  | brokenVariable (iteration broken : Nat)
  /-- No nonbasic variable can correct the broken one. -/
  | noSuitable (iteration broken : Nat)
  /-- Two variables were exchanged. -/
  | pivot (iteration leaving entering : Nat)
  /-- A verdict was reached. -/
  | solveFinished (sat : Bool) (iterations : Nat)
  /-- The search ended without a verdict. -/
  | solveAborted (error : Error)
  /-- The dispatching engine has its kernels and buffers. -/
  | engineReady (device source : String) (workgroupSize chunk : Nat)
  /-- The tableau was copied to the device. -/
  | tableauUploaded (rows cols : Nat)
  /-- A launch is about to be requested. -/
  | launchRequested (kernel : String) (size : LaunchSize)
  /-- The device holds the exchanged tableau. -/
  | pivotApplied (row col : Nat) (alpha : Binary32)
  /-- The device handed out a buffer. -/
  | allocated (buffer sizeBytes : Nat)
  /-- The device accepted a launch. -/
  | launched (kernel : String) (size : LaunchSize)

/-- The value of a field of an event. -/
inductive Field where
  /-- A count or an index. -/
  | nat (value : Nat)
  /-- A truth value. -/
  | bool (value : Bool)
  /-- A coefficient. -/
  | number (value : Binary32)
  /-- Anything that is shown as text. -/
  | text (value : String)

namespace Event

/-- How detailed an event is: verdicts before the course of the search, and
    that before single launches. -/
def level : Event → Level
  | .solveAborted .. => .warn
  | .solveStarted .. | .solveFinished .. => .info
  | .launchRequested .. | .pivotApplied .. | .allocated .. | .launched .. => .trace
  | _ => .debug

/-- The message of an event. -/
def message : Event → String
  | .solverCreated .. => "solver created"
  | .constraintAdded .. => "constraint added"
  | .solveStarted .. => "solve started"
  | .brokenVariable .. => "broken variable"
  | .noSuitable .. => "no suitable variable"
  | .pivot .. => "pivot"
  | .solveFinished .. => "solve finished"
  | .solveAborted .. => "solve aborted"
  | .engineReady .. => "parallel backend ready"
  | .tableauUploaded .. => "tableau uploaded"
  | .launchRequested .. => "launch"
  | .pivotApplied .. => "pivot applied"
  | .allocated .. => "host allocate"
  | .launched .. => "host launch"

private def launchFields (kernel : String) (size : LaunchSize) : List (String × Field) :=
  [("kernel", .text kernel), ("global", .text size.grid.text), ("local", .text size.group.text)]

/-- The fields of an event by name. -/
def fields : Event → List (String × Field)
  | .solverCreated maxRows numCols engine =>
    [("max_rows", .nat maxRows), ("num_cols", .nat numCols), ("backend", .text engine)]
  | .constraintAdded row => [("row", .nat row)]
  | .solveStarted rows cols engine =>
    [("rows", .nat rows), ("cols", .nat cols), ("backend", .text engine)]
  | .brokenVariable iteration broken | .noSuitable iteration broken =>
    [("iteration", .nat iteration), ("broken", .nat broken)]
  | .pivot iteration leaving entering =>
    [("iteration", .nat iteration), ("leaving", .nat leaving), ("entering", .nat entering)]
  | .solveFinished sat iterations => [("sat", .bool sat), ("iterations", .nat iterations)]
  | .solveAborted error => [("error", .text error.message)]
  | .engineReady device source workgroupSize chunk =>
    [("device", .text device), ("source", .text source),
      ("workgroup_size", .nat workgroupSize), ("chunk", .nat chunk)]
  | .tableauUploaded rows cols => [("rows", .nat rows), ("cols", .nat cols)]
  | .launchRequested kernel size | .launched kernel size => launchFields kernel size
  | .pivotApplied row col alpha =>
    [("row", .nat row), ("col", .nat col), ("alpha", .number alpha)]
  | .allocated buffer sizeBytes => [("buffer", .nat buffer), ("size_bytes", .nat sizeBytes)]

end Event

/-- The events so far, the oldest first. -/
abbrev Journal := Array Event

/-- The events of at most the detail of `level`. A level takes in all that are more severe. -/
def Journal.upTo (journal : Journal) (level : Level) : List Event :=
  journal.toList.filter fun e => e.level.detail ≤ level.detail

end BoundedSimplex
