import BoundedSimplex.Journal

/-!
# Operations

What an operation of this library may do: read and change a state, write to
the journal, and stop.

An operation that stops leaves the state as it was at that moment. This is
not a convenience. A refused transfer may come after others that took effect,
and what the caller then finds is part of the contract; so is the journal up
to that point.

There are four ways to stop besides an error. An index outside a table that
no check guards ends the operation for good, and so does a product that does
not fit the machine word it is kept in. A reduction that does not shrink its
input never ends, unless an error ends it. And a run that is given a number of
steps may use them up.

What becomes of a product that does not fit depends on how a program is built.
With checks of its arithmetic it gives up, which is the stop there is here;
without them it goes on with the remainder. A result that has to hold either way
says that the product fits.

## Main definitions

* `Stop`: Why an operation stops.
* `Traced`: A state together with the journal.
* `Exec`: An operation on a state.
* `Exec.word`: A number that has to fit a machine word.
* `Exec.focus`: An operation on a part, as an operation on the whole.
* `Exec.guarded`: An operation with a clean-up for when it stops.
-/

namespace BoundedSimplex

/-- Why an operation stops. Only an error comes back to the caller as a value; after any of
    the others there is no solver to go on with. -/
inductive Stop where
  /-- With an error, after which the state can be used further. -/
  | error (error : Error)
  /-- At an index outside a table that nothing guards. -/
  | outOfRange
  /-- At a number that does not fit the machine word it is kept in. -/
  | overflow
  /-- In a repetition that never ends. -/
  | endless
  /-- After the number of steps it was given. -/
  | outOfFuel
deriving DecidableEq

/-- A result, or a stop with an error. This is how a check that knows nothing of states
    becomes a part of an operation. -/
def Stop.orError {α : Type} : Except Error α → Except Stop α
  | .ok a => .ok a
  | .error e => .error (.error e)

/-- An entry of a table that nothing guards. A missing one is no error: nobody has checked
    the index, and the process gives up. -/
def unguarded {α : Type} : Option α → Except Stop α
  | some a => .ok a
  | none => .error .outOfRange

/-- A number of at most 32 bits. A larger one is what a machine has no room for. -/
def fitting (n : Nat) : Except Stop Nat := if n < UInt32.size then .ok n else .error .overflow

/-- A state together with the journal. The journal is kept apart from the state because it
    survives what is done to the state: an operation that stops has still written what it
    wrote. -/
structure Traced (σ : Type) where
  /-- The state. -/
  state : σ
  /-- What has happened so far. -/
  journal : Journal

/-- An operation on a state of type `σ` with a result of type `α`. The state at which it
    stops is part of the outcome, since what took effect before a failure stays. -/
abbrev Exec (σ α : Type) := EStateM Stop (Traced σ) α

namespace Exec

variable {σ τ α β : Type}

/-- The state. -/
def state : Exec σ σ := fun t => .ok t.state t

/-- A part of the state. -/
def view (f : σ → α) : Exec σ α := fun t => .ok (f t.state) t

/-- Replace the state. -/
def put (s : σ) : Exec σ Unit := fun t => .ok () ⟨s, t.journal⟩

/-- Change the state. -/
def update (f : σ → σ) : Exec σ Unit := fun t => .ok () ⟨f t.state, t.journal⟩

/-- Write to the journal. -/
def emit (e : Event) : Exec σ Unit := fun t => .ok () ⟨t.state, t.journal.push e⟩

/-- Stop with an error. -/
def fail (e : Error) : Exec σ α := fun t => .error (.error e) t

/-- A result, or a stop that leaves the state alone. The stop may be of any kind. -/
def ofExcept : Except Stop α → Exec σ α
  | .ok a => fun t => .ok a t
  | .error s => fun t => .error s t

/-- A result, or an error that leaves the state alone. Checks that come first in an
    operation are written in this way, so what they refuse has no effect. -/
def check (a : Except Error α) : Exec σ α := ofExcept (Stop.orError a)

/-- The entry of a table at an index that nothing guards. To be told apart from `check`,
    which reports a bad index as an error. -/
def entry (a : Option α) : Exec σ α := ofExcept (unguarded a)

/-- A number that has to fit a machine word of 32 bits. The number itself is the result, so
    what follows can go on with it. -/
def word (n : Nat) : Exec σ Nat := ofExcept (fitting n)

/-- An operation on a part, as an operation on the whole. The part is put back
    whether or not the operation stops. -/
def focus (get : τ → σ) (set : σ → τ → τ) (act : Exec σ α) : Exec τ α := fun t =>
  match act ⟨get t.state, t.journal⟩ with
  | .ok a s => .ok a ⟨set s.state t.state, s.journal⟩
  | .error e s => .error e ⟨set s.state t.state, s.journal⟩

/-- An operation with a clean-up that is made if it stops, for whatever reason. It is the
    shape of a destructor that runs early: what was made so far is given back, and then the
    reason goes on up. -/
def guarded (cleanUp : σ → σ) (act : Exec σ α) : Exec σ α := fun t =>
  match act t with
  | .ok a s => .ok a s
  | .error e s => .error e ⟨cleanUp s.state, s.journal⟩

/-- An operation whose errors, but no other stops, are answered. The answer begins in the
    state in which the error was made. -/
def onError (act : Exec σ α) (answer : Error → Exec σ α) : Exec σ α := fun t =>
  match act t with
  | .error (.error e) s => answer e s
  | r => r

/-- An operation on a state of its own, which shares only the journal. The state it leaves
    is part of the result, and is lost if it stops. -/
def aside (s : τ) (act : Exec τ α) : Exec σ (α × τ) := fun t =>
  match act ⟨s, t.journal⟩ with
  | .ok a u => .ok (a, u.state) ⟨t.state, u.journal⟩
  | .error e u => .error e ⟨t.state, u.journal⟩

/-- Run an operation on a state, with an empty journal to begin with. -/
def start (act : Exec σ α) (s : σ) : EStateM.Result Stop (Traced σ) α := act ⟨s, #[]⟩

end Exec

end BoundedSimplex
