import BoundedSimplex.Bounds.Store
import BoundedSimplex.Device.Attached
import BoundedSimplex.Device.Buffer

/-!
# Bounds on a Device

Bounds, values and roles kept in five buffers of a device.

A missing bound has a clear bit in a buffer of masks, and what its place in
the buffer of values holds is then of no importance. Setting one bound reads
the mask, writes the value and then the mask; setting both writes two values
and the mask without reading it.

Single values are read and written by transfers, each of which the device may
refuse. The tests on bounds are made by kernels only and are refused here.

## Main definitions

* `Bounds.Resident`: The five buffers.
* `Bounds.Resident.allocate`: Make them, or leave none behind.
* `Bounds.Resident.release`: Give them back.
-/

namespace BoundedSimplex

namespace Bounds

/-- The buffers that hold bounds, values and roles. A bound that is missing has a word all
    the same; a mask beside it says which of the words count. -/
structure Resident where
  /-- The lower bounds. -/
  lower : Buffer
  /-- The upper bounds. -/
  upper : Buffer
  /-- Which bounds there are, as masks. -/
  bounded : Buffer
  /-- The values. -/
  values : Buffer
  /-- The roles, as flags. -/
  flags : Buffer
  /-- The number of variables. -/
  numVars : Nat

namespace Resident

/-- The flags of problem variables followed by slacks: the first are nonbasic and the others
    basic, in the order of their numbers. -/
def initialFlags (numBasic numNonbasic : Nat) : Words :=
  (Array.range (numBasic + numNonbasic)).map fun v => (Role.initial numNonbasic v).flag

/-- Problem variables followed by slacks, all at zero and at least zero. If
    one buffer cannot be made those made before it are given back. -/
def allocate (numBasic numNonbasic : Nat) : Exec Device Resident := do
  let numVars := numBasic + numNonbasic
  let lower ← Buffer.zeroed numVars
  lower.guarding do
    let upper ← Buffer.zeroed numVars
    upper.guarding do
      let bounded ← Buffer.ofWords (Array.replicate numVars hasLower)
      bounded.guarding do
        let values ← Buffer.zeroed numVars
        values.guarding do
          let flags ← Buffer.ofWords (initialFlags numBasic numNonbasic)
          pure { lower, upper, bounded, values, flags, numVars }

/-- Give the buffers back. -/
def release (b : Resident) (d : Device) : Device :=
  b.flags.release (b.values.release (b.bounded.release (b.upper.release (b.lower.release d))))

/-- An operation that gives the buffers back if it stops. It is for the time in which the
    engine that will own them is still being made. -/
def guarding {α : Type} (b : Resident) (act : Exec Device α) : Exec Device α :=
  Exec.guarded b.release act

variable (b : Resident)

/-- There has to be a variable of that number. In a call about one variable it is the first
    thing, before anything is asked of the device. -/
def check (var : Nat) : Exec Device Unit := Exec.check (Error.checkIndex var b.numVars)

/-- One bound of a variable: nothing if its bit of the mask is clear. Its word is then not
    even read. -/
def readSide (var : Nat) (bit : UInt32) (values : Buffer) : Exec Device (Option Binary32) := do
  b.check var
  let mask ← b.bounded.get var
  if mask &&& bit = 0 then pure none
  else
    let w ← values.get var
    pure (some ⟨w⟩)

/-- The word written for a bound: the bound, or zero where there is none. -/
def sideWord (x : Option Binary32) : UInt32 := (x.getD 0).bits

/-- Set or clear one bound of a variable. The mask is read first and written last, so a
    transfer that is refused in between leaves the word changed and the mask as it was. -/
def writeSide (var : Nat) (bit : UInt32) (values : Buffer) (x : Option Binary32) :
    Exec Device Unit := do
  b.check var
  let mask ← b.bounded.get var
  values.set var (sideWord x)
  b.bounded.set var (if x.isSome then mask ||| bit else mask &&& ~~~bit)

/-- Set or clear both bounds of a variable. The mask is not read, since nothing of it stays,
    and it is written last. -/
def writeBoth (var : Nat) (i : Interval Binary32) : Exec Device Unit := do
  b.check var
  b.lower.set var (sideWord i.lower)
  b.upper.set var (sideWord i.upper)
  b.bounded.set var (boundMask i)

/-- The value of a variable. -/
def readValue (var : Nat) : Exec Device Binary32 := do
  b.check var
  let w ← b.values.get var
  pure ⟨w⟩

/-- Overwrite the value of a variable. -/
def writeValue (var : Nat) (x : Binary32) : Exec Device Unit := do
  b.check var
  b.values.set var x.bits

/-- The values of the first `count` variables, in one transfer. A count that is too large is
    reported like an index that is. -/
def readValues (count : Nat) : Exec Device (Array Binary32) := do
  if b.numVars < count then Exec.fail (.indexOutOfBounds count b.numVars)
  else
    let ws ← b.values.read 0 count
    pure (ws.map Binary32.mk)

/-- The role of a variable. -/
def readRole (var : Nat) : Exec Device Role := do
  b.check var
  let w ← b.flags.get var
  pure (.ofFlag w)

/-- Change the role of a variable. -/
def writeRole (var : Nat) (r : Role) : Exec Device Unit := do
  b.check var
  b.flags.set var r.flag

open Attached in
instance : BoundStore (Attached Resident) Binary32 where
  numVars a := a.handle.numVars
  lower v := onDevice fun b => b.readSide v hasLower b.lower
  upper v := onDevice fun b => b.readSide v hasUpper b.upper
  setLower v x := onDevice fun b => b.writeSide v hasLower b.lower x
  setUpper v x := onDevice fun b => b.writeSide v hasUpper b.upper x
  setBounds v i := onDevice fun b => b.writeBoth v i
  assignment v := onDevice fun b => b.readValue v
  setAssignment v x := onDevice fun b => b.writeValue v x
  assignments count := onDevice fun b => b.readValues count
  role v := onDevice fun b => b.readRole v
  setRole v r := onDevice fun b => b.writeRole v r
  isBroken _ := Exec.fail (.deviceResident "is_broken")
  canIncrease _ := Exec.fail (.deviceResident "is_increasable")
  canDecrease _ := Exec.fail (.deviceResident "is_decreasable")
  increase _ _ := Exec.fail (.deviceResident "increase_assignment")
  decrease _ _ := Exec.fail (.deviceResident "decrease_assignment")

end Resident

end Bounds

end BoundedSimplex
