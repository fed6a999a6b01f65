import BoundedSimplex.Device.Entry
import BoundedSimplex.Device.Memory

/-!
# What a Kernel Sees

The arguments of a launch, and the memory while a kernel runs.

A kernel writes one buffer, and that buffer is detached from the memory while
it does: the rest can be read, and naming the output as an input as well
finds no buffer of that number. The kernel changes its output in place. When
it is done, or refuses its arguments, the buffer is put back as it then is.
Only a kernel that is stopped by an index outside a table leaves its output
detached for good.

## Main definitions

* `Invocation`: The arguments and the geometry of a launch.
* `Body`: A part of a kernel, on its output.
* `KernelRun`: How a kernel turns one memory into the next.
* `withOutput`: A kernel body between detaching and putting back.
* `need`: The refusal of a buffer that is too short.
* `BoundView`: The bounds a kernel reads.
-/

namespace BoundedSimplex

/-- The arguments and the geometry of a launch. Scalars and buffers are numbered separately,
    each from zero, in the order of the arguments. -/
structure Invocation where
  /-- The kernel. -/
  entry : Entry
  /-- The scalars, in order. -/
  scalars : Array UInt32
  /-- The numbers of the buffers, in order. -/
  buffers : Array Nat
  /-- The work items asked for. -/
  size : LaunchSize

/-- A part of a kernel, which reads and replaces words of the output. What it
    has replaced by the time it stops stays replaced. -/
abbrev Body (α : Type) := EStateM Stop Words α

namespace Body

variable {α : Type}

/-- A result, or a stop that leaves the output as it is by then. What a body has written
    before that is not taken back. -/
def ofExcept : Except Stop α → Body α
  | .ok a => fun out => .ok a out
  | .error s => fun out => .error s out

/-- The entry of a table at an index that nothing guards. A kernel that gets such an index
    wrong stops the process. -/
def entry (a : Option α) : Body α := ofExcept (unguarded a)

/-- The output as it is by now. -/
def output : Body Words := fun out => .ok out out

/-- Replace words of the output. -/
def write (f : Words → Words) : Body Unit := fun out => .ok () (f out)

end Body

/-- How a kernel turns one memory into the next. There is a next one in any case, also if
    the kernel stops. -/
abbrev KernelRun := Memory → Except Stop Unit × Memory

namespace Invocation

/-- A scalar as a word. Every launch has all its scalars. -/
def word (inv : Invocation) (i : Nat) : UInt32 := (inv.scalars[i]?).getD 0

/-- A scalar as a count or an index. -/
def nat (inv : Invocation) (i : Nat) : Nat := (inv.word i).toNat

/-- A scalar as a number. -/
def number (inv : Invocation) (i : Nat) : Binary32 := ⟨inv.word i⟩

/-- A buffer. Every launch has all its buffers, and there is no buffer zero to be mistaken
    for one. -/
def buffer (inv : Invocation) (i : Nat) : Nat := (inv.buffers[i]?).getD 0

/-- The contents of a buffer that is read. The output is detached at this point, so to read
    that one is an error. -/
def input (inv : Invocation) (m : Memory) (i : Nat) : Body Words :=
  .ofExcept (Stop.orError (m.words (inv.buffer i)))

/-- Refuse a buffer that holds fewer elements than the kernel needs. Not all tables a kernel
    reads are checked in this way. -/
def need (inv : Invocation) (what : String) (size required : Nat) : Body Unit :=
  .ofExcept (if size < required then
    .error (.error (.shortBuffer inv.entry.name what size required))
  else .ok ())

/-- Run a kernel body with the output detached, and put the output back. It is put back
    after an error as well, but not if the body stops in another way. -/
def withOutput (inv : Invocation) (output : Nat) (body : Memory → Body Unit) : KernelRun := fun m =>
  let id := inv.buffer output
  match m.words? id with
  | none => (.error (.error (.unknownBuffer id)), m)
  | some words =>
    let detached := m.release id
    match body detached words with
    | .ok _ words => (.ok (), detached.store id words)
    -- With whatever was replaced before the refusal.
    | .error (.error e) words => (.error (.error e), detached.store id words)
    -- Nobody is left to put the output back.
    | .error stop _ => (.error stop, detached)

end Invocation

/-- The bounds a kernel reads: both ends of every variable, and the mask that says which of
    them are set. A kernel has no table, only these three runs of words. -/
structure BoundView where
  /-- The lower bounds. -/
  lower : Words
  /-- The upper bounds. -/
  upper : Words
  /-- The masks. -/
  bounded : Words

namespace BoundView

/-- Read the bounds from three buffers that follow one another. -/
def read (inv : Invocation) (m : Memory) (first : Nat) : Body BoundView := do
  let lower ← inv.input m first
  let upper ← inv.input m (first + 1)
  let bounded ← inv.input m (first + 2)
  pure ⟨lower, upper, bounded⟩

/-- One bound of a variable: nothing if its bit of the mask is clear. The
    value is looked at only if the bit is set. -/
def side? (values bounded : Words) (bit : UInt32) (var : Nat) : Option (Option Binary32) := do
  let mask ← bounded[var]?
  if mask &&& bit = 0 then some none else (values.number? var).map some

/-- Both bounds of a variable. -/
def interval? (b : BoundView) (var : Nat) : Option (Interval Binary32) := do
  let lower ← side? b.lower b.bounded hasLower var
  let upper ← side? b.upper b.bounded hasUpper var
  some ⟨lower, upper⟩

end BoundView

end BoundedSimplex
