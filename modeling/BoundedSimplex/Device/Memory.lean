import BoundedSimplex.Exec

/-!
# Device Memory

Numbered buffers of 32 bit words.

Buffers are numbered from one in the order they are handed out. The table of
buffers only grows: a released buffer leaves its place empty, so a number is
never given out twice and an old number cannot come to mean a new buffer.

Transfers are measured in bytes but move whole words. An offset or a length
that is not a multiple of four is refused, as is a transfer beyond the end.

## Main definitions

* `Memory`: The buffers.
* `Memory.allocate`, `Memory.release`: Hand out a buffer, and take it back.
* `Memory.read`, `Memory.write`: The transfers, in words.
* `Words.toBytes`, `Words.ofBytes`: Words as bytes, the low byte first.

## Theorems

* `Memory.words?_allocate`: A new buffer is zero and the others are as before.
* `Memory.words?_release`, `Memory.words?_store`: So are the others here.
-/

namespace BoundedSimplex

/-- The contents of a buffer. Numbers and indices are both kept in words of 32 bits, and
    which one it is depends on the reader. -/
abbrev Words := Array UInt32

namespace Words

/-- The bytes of a word, the low byte first. -/
def bytesOf (w : UInt32) : List UInt8 :=
  [w.toUInt8, (w >>> 8).toUInt8, (w >>> 16).toUInt8, (w >>> 24).toUInt8]

/-- The word of four bytes, the low byte first. -/
def wordOf (a b c d : UInt8) : UInt32 :=
  a.toUInt32 ||| (b.toUInt32 <<< 8) ||| (c.toUInt32 <<< 16) ||| (d.toUInt32 <<< 24)

/-- The bytes of all words. -/
def toBytes (ws : Words) : List UInt8 := ws.toList.flatMap bytesOf

/-- The words of groups of four bytes; a shorter rest is dropped. -/
def ofByteList : List UInt8 → List UInt32
  | a :: b :: c :: d :: rest => wordOf a b c d :: ofByteList rest
  | _ => []

/-- The words of bytes. -/
def ofBytes (bytes : List UInt8) : Words := (ofByteList bytes).toArray

/-- The words with those from `start` on replaced by `data`. It is meant for runs that end
    within the words, and there the length stays. -/
def overlay (ws : Words) (start : Nat) (data : Words) : Words :=
  ws.extract 0 start ++ data ++ ws.extract (start + data.size) ws.size

/-- The words as numbers. -/
def number? (ws : Words) (i : Nat) : Option Binary32 := (ws[i]?).map Binary32.mk

end Words

/-- The buffers of a device, by number. A place holds words while the buffer is in use, and
    nothing after it was released or while a kernel has it in hands. -/
structure Memory where
  /-- The buffer of each number, or nothing where it was released. There is no
      buffer zero. -/
  buffers : Array (Option Words)

namespace Memory

/-- A memory without buffers. -/
def empty : Memory := ⟨#[none]⟩

/-- The contents of a buffer. There is nothing for a number that was never given out or was
    taken back. -/
def words? (m : Memory) (id : Nat) : Option Words := (m.buffers[id]?).join

/-- The number given out last, or zero. -/
def lastId (m : Memory) : Nat := m.buffers.size - 1

/-- The number of the next buffer. It only grows, so a number that was taken back is not
    given out again. -/
def nextId (m : Memory) : Nat := m.buffers.size

/-- Hand out a buffer of zeros. No other buffer changes. -/
def allocate (m : Memory) (words : Nat) : Memory :=
  ⟨m.buffers.push (some (Array.replicate words 0))⟩

/-- Take a buffer back. A number that stands for none is ignored. -/
def release (m : Memory) (id : Nat) : Memory := ⟨m.buffers.setIfInBounds id none⟩

/-- Replace the contents of a buffer. It does not ask whether the buffer is in use, so it
    also puts back a buffer that was detached. -/
def store (m : Memory) (id : Nat) (words : Words) : Memory :=
  ⟨m.buffers.setIfInBounds id (some words)⟩

/-- The numbers of the buffers in use. -/
def liveIds (m : Memory) : List Nat :=
  (List.range m.buffers.size).filter fun id => (m.words? id).isSome

/-- The number of buffers in use. -/
def live (m : Memory) : Nat := m.liveIds.length

/-- The contents of a buffer that has to be in use. -/
def words (m : Memory) (id : Nat) : Except Error Words :=
  match m.words? id with
  | some ws => .ok ws
  | none => .error (.unknownBuffer id)

/-- The contents of a buffer that can take part in a transfer of `length` bytes at
    `offset`. Where the transfer ends is worked out exactly here, so that an end beyond
    everything is refused like any other. A machine keeps it in a word of 64 bits. If it
    does not fit there the process stops instead of refusing, either at the sum or at the
    bytes that it stands for, and the memory is as it was. -/
def transfer (m : Memory) (id offset length : Nat) : Except Error Words := do
  let ws ← m.words id
  if offset % 4 ≠ 0 ∨ length % 4 ≠ 0 ∨ ws.size * 4 < offset + length then
    .error (.badTransfer length offset id (ws.size * 4))
  else .ok ws

/-- Read `count` words at a byte offset. -/
def read (m : Memory) (id offset count : Nat) : Except Error Words := do
  let ws ← m.transfer id offset (4 * count)
  pure (ws.extract (offset / 4) (offset / 4 + count))

/-- Write words at a byte offset. -/
def write (m : Memory) (id offset : Nat) (data : Words) : Except Error Memory := do
  let ws ← m.transfer id offset (4 * data.size)
  pure (m.store id (ws.overlay (offset / 4) data))

/-- Read `length` bytes at a byte offset. -/
def readBytes (m : Memory) (id offset length : Nat) : Except Error (List UInt8) := do
  let ws ← m.transfer id offset length
  pure (Words.toBytes (ws.extract (offset / 4) (offset / 4 + length / 4)))

/-- Write bytes at a byte offset. -/
def writeBytes (m : Memory) (id offset : Nat) (data : List UInt8) : Except Error Memory := do
  let ws ← m.transfer id offset data.length
  pure (m.store id (ws.overlay (offset / 4) (Words.ofBytes data)))

theorem words?_allocate (m : Memory) (n id : Nat) :
    (m.allocate n).words? id =
      if id = m.nextId then some (Array.replicate n 0) else m.words? id := by
  simp only [words?, allocate, nextId, Array.getElem?_push]
  split <;> simp_all

theorem words?_release (m : Memory) (id other : Nat) :
    (m.release id).words? other = if id = other then none else m.words? other := by
  simp only [words?, release, Array.getElem?_setIfInBounds]
  split
  · split <;> simp
  · rfl

theorem words?_store {m : Memory} {id : Nat} (other : Nat) {ws old : Words}
    (h : m.words? id = some old) :
    (m.store id ws).words? other = if id = other then some ws else m.words? other := by
  have hlt : id < m.buffers.size := by
    rcases Nat.lt_or_ge id m.buffers.size with hlt | hge
    · exact hlt
    · simp [words?, hge] at h
  simp only [words?, store, Array.getElem?_setIfInBounds]
  split
  · simp_all
  · rfl

end Memory

end BoundedSimplex
