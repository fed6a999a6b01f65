import BoundedSimplex.Bounds.Store

/-!
# Bounds in a Table

Bounds, values and roles kept in a table, one entry for each variable.

All that belongs to a variable is one entry, so that the parts cannot get out
of step. Every access is made through `at?` or `change`, which guard the
index; nothing else can fail here, and the tests that need a tolerance find
it beside the entries.

## Main definitions

* `Variable`: All that is kept about one variable.
* `Bounds.Table`: The entries and the tolerance.
-/

namespace BoundedSimplex

/-- All that is kept about one variable: where it may lie, where it lies, and whether it
    owns a row. -/
structure Variable (α : Type) where
  /-- Its bounds. -/
  interval : Interval α
  /-- Its value. -/
  value : α
  /-- Its role. -/
  role : Role
deriving DecidableEq

namespace Bounds

/-- Bounds, values and roles of all variables. The tolerance is kept with them because being
    broken is asked of the table. -/
structure Table (α : Type) where
  /-- One entry for each variable. -/
  entries : Array (Variable α)
  /-- The distance within which a value counts as lying on a bound. -/
  tolerance : α

namespace Table

variable {α : Type}

/-- Problem variables followed by slacks, all at zero and at least zero. They differ in
    their roles only. -/
def initial [Scalar α] (numBasic numNonbasic : Nat) (tolerance : α) : Table α where
  entries := (Array.range (numBasic + numNonbasic)).map fun v =>
    ⟨.nonnegative, 0, .initial numNonbasic v⟩
  tolerance := tolerance

/-- The entry of a variable. -/
def at? (t : Table α) (var : Nat) : Except Error (Variable α) :=
  match t.entries[var]? with
  | some v => .ok v
  | none => .error (.indexOutOfBounds var t.entries.size)

/-- Change the entry of a variable. -/
def change (var : Nat) (f : Variable α → Variable α) : Exec (Table α) Unit := do
  let t ← Exec.state
  Exec.check (Error.checkIndex var t.entries.size)
  Exec.update fun t => { t with entries := t.entries.modify var f }

/-- Read from the entry of a variable. -/
def read {β : Type} (var : Nat) (f : Variable α → β) : Exec (Table α) β := do
  let t ← Exec.state
  Exec.check ((t.at? var).map f)

/-- The values of the first `count` variables, if there are that many. -/
def values? (t : Table α) (count : Nat) : Except Error (Array α) :=
  if t.entries.size < count then .error (.indexOutOfBounds count t.entries.size)
  else .ok ((t.entries.extract 0 count).map (·.value))

instance [Scalar α] : BoundStore (Table α) α where
  numVars t := t.entries.size
  lower v := read v (·.interval.lower)
  upper v := read v (·.interval.upper)
  setLower v x := change v fun e => { e with interval.lower := x }
  setUpper v x := change v fun e => { e with interval.upper := x }
  setBounds v i := do
    change v fun e => { e with interval.lower := i.lower }
    change v fun e => { e with interval.upper := i.upper }
  assignment v := read v (·.value)
  setAssignment v x := change v fun e => { e with value := x }
  assignments count := do
    let t ← Exec.state
    Exec.check (t.values? count)
  role v := read v (·.role)
  setRole v r := change v fun e => { e with role := r }
  isBroken v := do
    let t ← Exec.state
    read v fun e => e.interval.isBroken t.tolerance e.value
  canIncrease v := read v fun e => e.interval.canIncrease e.value
  canDecrease v := read v fun e => e.interval.canDecrease e.value
  increase v d := change v fun e => { e with value := e.value + d }
  decrease v d := change v fun e => { e with value := e.value - d }

end Table

end Bounds

end BoundedSimplex
