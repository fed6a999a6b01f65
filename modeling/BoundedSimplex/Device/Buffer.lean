import BoundedSimplex.Device.Gateway

/-!
# Buffers of Elements

Buffers addressed by element.

A buffer is known by its number and by the number of elements it was made
for. Accesses are checked against that length before anything is asked of the
device. The device may hold a little more: a buffer without elements still
has a word.

Elements are words, or bytes where a caller asks for bytes. Whoever owns a
buffer gives it back; `Buffer.guarding` gives one back if something later
fails.

## Main definitions

* `Buffer`: A buffer and its length.
* `Buffer.zeroed`, `Buffer.ofWords`: Make a buffer.
* `Buffer.read`, `Buffer.write`: Runs of elements.
* `Buffer.guarding`: Give the buffer back if what follows stops.
-/

namespace BoundedSimplex

/-- A buffer and the number of elements it was made for. The device rounds sizes up, so the
    length is what a range is checked against before the device is asked. -/
structure Buffer where
  /-- The number of the buffer. -/
  id : Nat
  /-- The number of elements. -/
  length : Nat

namespace Buffer

/-- A buffer of `length` zero words. -/
def zeroed (length : Nat) : Exec Device Buffer := do
  -- A buffer without elements still gets a word.
  let id ← Device.allocate (max (length * 4) 4)
  pure ⟨id, length⟩

/-- A buffer that holds the given words. If they cannot be copied the storage
    stays behind, since no buffer was made yet that could be given back. -/
def ofWords (words : Words) : Exec Device Buffer := do
  if words.isEmpty then zeroed 0
  else
    let id ← Device.allocate (4 * words.size)
    Device.write id 0 words
    pure ⟨id, words.size⟩

/-- A buffer of `length` zero bytes. -/
def zeroedBytes (length : Nat) : Exec Device Buffer := do
  let id ← Device.allocate (max length 4)
  pure ⟨id, length⟩

/-- A buffer that holds the given bytes. -/
def ofBytes (bytes : List UInt8) : Exec Device Buffer := do
  if bytes.isEmpty then zeroedBytes 0
  else
    let id ← Device.allocateFrom bytes
    pure ⟨id, bytes.length⟩

/-- Give the buffer back. -/
def release (b : Buffer) (d : Device) : Device := d.release b.id

/-- An operation that gives the buffer back if it stops. What the operation made itself is
    for the operation to give back. -/
def guarding {α : Type} (b : Buffer) (act : Exec Device α) : Exec Device α :=
  Exec.guarded b.release act

/-- The buffer as an argument of a kernel. -/
def arg (b : Buffer) : Arg := .buffer b.id

/-- A run of elements has to end within the buffer. This is checked in the process, so a run
    that does not is no request at all. -/
def checkRange (b : Buffer) (offset count : Nat) : Except Error Unit :=
  if b.length < offset + count then .error (.indexOutOfBounds (offset + count) b.length)
  else .ok ()

/-- Read `count` words from an element on. -/
def read (b : Buffer) (offset count : Nat) : Exec Device Words := do
  Exec.check (b.checkRange offset count)
  Device.read b.id (offset * 4) count

/-- Write words from an element on. -/
def write (b : Buffer) (offset : Nat) (data : Words) : Exec Device Unit := do
  Exec.check (b.checkRange offset data.size)
  Device.write b.id (offset * 4) data

/-- Read one word. -/
def get (b : Buffer) (i : Nat) : Exec Device UInt32 := do
  let data ← b.read i 1
  pure ((data[0]?).getD 0)

/-- Write one word. -/
def set (b : Buffer) (i : Nat) (w : UInt32) : Exec Device Unit := b.write i #[w]

/-- Read `count` bytes from an element on. -/
def readBytes (b : Buffer) (offset count : Nat) : Exec Device (List UInt8) := do
  Exec.check (b.checkRange offset count)
  Device.readBytes b.id offset count

/-- Write bytes from an element on. -/
def writeBytes (b : Buffer) (offset : Nat) (data : List UInt8) : Exec Device Unit := do
  Exec.check (b.checkRange offset data.length)
  Device.writeBytes b.id offset data

/-- The text of a buffer in descriptions. -/
def text (b : Buffer) : String :=
  s!"DeviceBuffer \x7b id: BufferId({b.id}), len: {b.length} \x7d"

end Buffer

end BoundedSimplex
