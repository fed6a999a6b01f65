import BoundedSimplex.Proofs.Creation
import Mathlib.Tactic.IntervalCases

/-!
# Device Memory as Bytes

The buffers of a device are separate arrays of bytes.

A device keeps words and moves words, but a caller hands over bytes and gets
bytes back. What he may rely on can be said without any words: a buffer has so
many bytes, the size he asked for rounded up, and each of them is the one that
was written there last, or zero. This is a statement about the calls that were
made and not about a state, so it is stated as functions of the calls so far,
the newest first: how many buffers were handed out, which of them are in use and
of what size, and what every byte of them is. From these follows the reply to
the next call.

The device is a refinement of this. The relation between the two, `Records`, is
that every buffer in use has the bytes that the calls left there. Each call
keeps it, one case for each kind of call, and replies as the calls so far say,
so a whole session does.

Clones of a device are the same device, so the calls of all of them are one
list.

## Main definitions

* `MemoryCall`, `MemoryReply`, `MemoryCall.session`: What a caller can do with
  the memory of a device, and what he is told.
* `MemoryCall.size?`, `MemoryCall.byte`: Buffers and bytes, from the calls made.
* `MemoryCall.reply`: The reply to a call, from the calls before it.
* `Device.Records`: The memory of the device is the one of the calls.

## Theorems

* `Words.toBytes_ofBytes`: Bytes that come in whole words come back.
* `Words.getElem?_toBytes_overlay`: The bytes of words that were written over.
* `Device.Records.answer_gives`: One call.
* `Device.Records.session_gives`: A session.
* `session_isolates_bytes`: What all this says of the memory of a device.
-/

namespace BoundedSimplex

/-! ### Words and their bytes -/

namespace Words

/-- A word is put together out of its bytes. -/
theorem bytesOf_wordOf (a b c d : UInt8) : bytesOf (wordOf a b c d) = [a, b, c, d] := by
  simp only [bytesOf, wordOf, List.cons.injEq, and_true]
  refine ⟨?_, ?_, ?_, ?_⟩ <;>
  · refine UInt8.eq_of_toBitVec_eq ?_
    ext i hi
    interval_cases i <;> simp

theorem length_toBytes (ws : Words) : ws.toBytes.length = 4 * ws.size := by
  rw [toBytes, List.length_flatMap, ← Array.length_toList]
  induction ws.toList with
  | nil => rfl
  | cons w rest ih =>
      rw [List.map_cons, List.sum_cons, ih, List.length_cons]
      show 4 + _ = _
      omega

theorem toBytes_append (ws vs : Words) : toBytes (ws ++ vs) = ws.toBytes ++ vs.toBytes := by
  rw [toBytes, Array.toList_append, List.flatMap_append]
  rfl

theorem flatMap_bytesOf_drop (l : List UInt32) (n : Nat) :
    (l.drop n).flatMap bytesOf = (l.flatMap bytesOf).drop (4 * n) := by
  induction n generalizing l with
  | zero => rfl
  | succ n ih =>
      cases l with
      | nil => simp only [List.drop_nil, List.flatMap_nil]
      | cons w rest =>
          rw [List.drop_succ_cons, ih, List.flatMap_cons, Nat.mul_succ, Nat.add_comm,
            ← List.drop_drop]
          rfl

theorem flatMap_bytesOf_take (l : List UInt32) (n : Nat) :
    (l.take n).flatMap bytesOf = (l.flatMap bytesOf).take (4 * n) := by
  induction n generalizing l with
  | zero => rfl
  | succ n ih =>
      cases l with
      | nil => simp only [List.take_nil, List.flatMap_nil]
      | cons w rest =>
          rw [List.take_succ_cons, List.flatMap_cons, ih, List.flatMap_cons, Nat.mul_succ]
          rfl

/-- The bytes of a part. -/
theorem toBytes_extract (ws : Words) (start stop : Nat) :
    toBytes (ws.extract start stop) = (ws.toBytes.drop (4 * start)).take (4 * (stop - start)) := by
  rw [toBytes, Array.toList_extract, List.extract_eq_take_drop, flatMap_bytesOf_take,
    flatMap_bytesOf_drop]
  rfl

/-- The bytes of zeros. -/
theorem toBytes_replicate_zero (n : Nat) :
    toBytes (Array.replicate n 0) = List.replicate (4 * n) 0 := by
  refine List.eq_replicate_iff.mpr ⟨by rw [length_toBytes, Array.size_replicate], fun x hx => ?_⟩
  rcases List.mem_flatMap.mp hx with ⟨w, hw, hx⟩
  rw [Array.toList_replicate] at hw
  rw [List.eq_of_mem_replicate hw, show bytesOf 0 = List.replicate 4 0 from rfl] at hx
  exact List.eq_of_mem_replicate hx

/-- Bytes that come in whole words come back. A transfer of another length is refused before
    it gets to this. -/
theorem toBytes_ofBytes {bytes : List UInt8} (h : 4 ∣ bytes.length) :
    (ofBytes bytes).toBytes = bytes := by
  rw [toBytes, ofBytes, List.toList_toArray]
  fun_induction ofByteList bytes with
  | case1 a b c d rest ih =>
      have hrest : 4 ∣ rest.length := by
        simp only [List.length_cons] at h
        omega
      rw [List.flatMap_cons, bytesOf_wordOf, ih hrest]
      rfl
  -- What is shorter than a word is not divisible by four, unless it is empty.
  | case2 bytes hshort =>
      match bytes, hshort with
      | [], _ => rfl
      | [_], _ | [_, _], _ | [_, _, _], _ => simp at h
      | a :: b :: c :: d :: rest, hshort => exact absurd rfl (hshort a b c d rest)

theorem size_ofBytes {bytes : List UInt8} (h : 4 ∣ bytes.length) :
    4 * (ofBytes bytes).size = bytes.length := by
  rw [← length_toBytes, toBytes_ofBytes h]

/-- The bytes that were replaced, and the others as before. The memory is kept in words, and
    this is how a change of bytes in the middle of it shows. -/
theorem getElem?_toBytes_overlay {ws data : Words} {start : Nat}
    (hend : start + data.size ≤ ws.size) (i : Nat) : (ws.overlay start data).toBytes[i]?
      = if 4 * start ≤ i ∧ i < 4 * start + 4 * data.size then data.toBytes[i - 4 * start]?
        else ws.toBytes[i]? := by
  have hws := length_toBytes ws
  have hdata := length_toBytes data
  have hfront : (ws.toBytes.take (4 * start)).length = 4 * start := by
    rw [List.length_take]
    omega
  rw [overlay, toBytes_append, toBytes_append, toBytes_extract, toBytes_extract, Nat.mul_zero,
    List.drop_zero, Nat.sub_zero]
  -- Three stretches: before the data, the data, and behind it, where the index may also be past
  -- the end.
  by_cases hlow : i < 4 * start
  · rw [if_neg (by omega), List.getElem?_append_left (by rw [List.length_append]; omega),
      List.getElem?_append_left (by omega), List.getElem?_take_of_lt hlow]
  · by_cases hin : i < 4 * start + 4 * data.size
    · rw [if_pos ⟨by omega, hin⟩, List.getElem?_append_left (by rw [List.length_append]; omega),
        List.getElem?_append_right (by omega), hfront]
    · rw [if_neg (by omega), List.getElem?_append_right (by rw [List.length_append]; omega),
        List.length_append, hfront, hdata]
      by_cases hi : i < 4 * ws.size
      · rw [List.getElem?_take_of_lt (by omega), List.getElem?_drop]
        congr 1
        omega
      · rw [List.getElem?_eq_none (by rw [List.length_take, List.length_drop]; omega),
          List.getElem?_eq_none (by omega)]

end Words

/-- The bytes of a buffer, if it is in use. -/
def Memory.bytes? (m : Memory) (id : Nat) : Option (List UInt8) := (m.words? id).map Words.toBytes

/-! ### Calls -/

/-- What a caller can do with the memory of a device. -/
inductive MemoryCall where
  | allocate (bytes : Nat)
  | allocateFrom (data : List UInt8)
  | release (id : Nat)
  | write (id offset : Nat) (data : List UInt8)
  | read (id offset length : Nat)

/-- What a caller is told. -/
inductive MemoryReply where
  | done
  | buffer (id : Nat)
  | bytes (data : List UInt8)
  | refused (e : Error)
deriving DecidableEq

/-- The number of the buffer that was handed out. -/
def MemoryReply.buffer? : MemoryReply → Option Nat
  | .buffer id => some id
  | _ => none

namespace MemoryCall

/-- Carry out a call. -/
def perform : MemoryCall → Exec Device MemoryReply
  | .allocate bytes => do
    let id ← Device.allocate bytes
    pure (.buffer id)
  | .allocateFrom data => do
    let id ← Device.allocateFrom data
    pure (.buffer id)
  | .release id => do
    Exec.update (Device.release id)
    pure .done
  | .write id offset data => do
    Device.writeBytes id offset data
    pure .done
  | .read id offset length => do
    let data ← Device.readBytes id offset length
    pure (.bytes data)

/-- Carry out a call. An error is a reply too. -/
def answer (c : MemoryCall) : Exec Device MemoryReply :=
  Exec.onError c.perform fun e => pure (.refused e)

/-- Carry out calls, one after the other. -/
def session (calls : List MemoryCall) : Exec Device (List MemoryReply) := calls.mapM answer

/-- The buffer a call is about, if the next one to be handed out is `next`. -/
def target (next : Nat) : MemoryCall → Nat
  | .allocate _ | .allocateFrom _ => next
  | .release id | .write id _ _ | .read id _ _ => id

/-- A call that moves bytes to or from a buffer there is. -/
def IsTransfer : MemoryCall → Prop
  | .write .. | .read .. => True
  | .allocate _ | .allocateFrom _ | .release _ => False

/-! ### What the calls so far say

The calls are listed from the newest one back. -/

/-- How many buffers were handed out. -/
def handedOut : List MemoryCall → Nat
  | [] => 0
  | .allocate _ :: past | .allocateFrom _ :: past => handedOut past + 1
  | .release _ :: past | .write .. :: past | .read .. :: past => handedOut past

/-- The size of a buffer for so many bytes. -/
def rounded (bytes : Nat) : Nat := 4 * ((bytes + 3) / 4)

/-- The size in bytes of a buffer, if it is in use. -/
def size? : List MemoryCall → Nat → Option Nat
  | [], _ => none
  | .allocate bytes :: past, id =>
    if id = handedOut past + 1 then some (rounded bytes) else size? past id
  | .allocateFrom data :: past, id =>
    if id = handedOut past + 1 then some (rounded data.length) else size? past id
  | .release other :: past, id => if id = other then none else size? past id
  | .write .. :: past, id | .read .. :: past, id => size? past id

/-- A transfer of so many bytes is possible. -/
def Fits (past : List MemoryCall) (id offset length : Nat) : Prop :=
  ∃ size ∈ size? past id, 4 ∣ offset ∧ 4 ∣ length ∧ offset + length ≤ size

instance (past : List MemoryCall) (id offset length : Nat) :
    Decidable (Fits past id offset length) :=
  inferInstanceAs (Decidable (∃ size ∈ size? past id, _))

/-- A byte of a buffer: the one that was written there last, or zero. It is read off the
    calls and needs no memory. -/
def byte : List MemoryCall → Nat → Nat → UInt8
  | [], _, _ => 0
  | .allocateFrom data :: past, id, i =>
    if id = handedOut past + 1 ∧ 4 ∣ data.length ∧ i < data.length then data.getD i 0
    else byte past id i
  | .write other offset data :: past, id, i =>
    if id = other ∧ Fits past id offset data.length ∧ offset ≤ i ∧ i < offset + data.length then
      data.getD (i - offset) 0
    else byte past id i
  | .allocate _ :: past, id, i | .release _ :: past, id, i | .read .. :: past, id, i =>
    byte past id i

/-- The bytes of a buffer, if it is in use. -/
def contents? (past : List MemoryCall) (id : Nat) : Option (List UInt8) :=
  (size? past id).map fun size => (List.range size).map (byte past id)

/-- Why a transfer is not possible. -/
def fault (past : List MemoryCall) (id offset length : Nat) : Error :=
  match size? past id with
  | none => .unknownBuffer id
  | some size => .badTransfer length offset id size

/-- The reply to a call after the calls so far. It depends on the sizes of buffers in use
    and on what was written, both of which the calls tell. -/
def reply (past : List MemoryCall) : MemoryCall → MemoryReply
  | .allocate _ => .buffer (handedOut past + 1)
  | .allocateFrom data =>
    if 4 ∣ data.length then .buffer (handedOut past + 1)
    else .refused (.badTransfer data.length 0 (handedOut past + 1) (rounded data.length))
  | .release _ => .done
  | .write id offset data =>
    if Fits past id offset data.length then .done
    else .refused (fault past id offset data.length)
  | .read id offset length =>
    if Fits past id offset length then
      .bytes ((List.range length).map fun k => byte past id (offset + k))
    else .refused (fault past id offset length)

/-- The replies to calls, one after the other. -/
def replies : List MemoryCall → List MemoryCall → List MemoryReply
  | _, [] => []
  | past, c :: rest => reply past c :: replies (c :: past) rest

variable {past : List MemoryCall} {id : Nat}

theorem handedOut_le (c : MemoryCall) (past : List MemoryCall) :
    handedOut past ≤ handedOut (c :: past) := by
  cases c <;> simp only [handedOut] <;> omega

theorem handedOut_le_append (later past : List MemoryCall) :
    handedOut past ≤ handedOut (later ++ past) := by
  induction later with
  | nil => exact Nat.le_refl _
  | cons c rest ih => exact Nat.le_trans ih (handedOut_le c (rest ++ past))

/-- A number that was not handed out stands for nothing. -/
theorem size?_eq_none (h : handedOut past < id) : size? past id = none := by
  induction past with
  | nil => rfl
  | cons c past ih =>
      have hpast := ih (Nat.lt_of_le_of_lt (handedOut_le c past) h)
      cases c with
      | allocate bytes | allocateFrom data =>
          simp only [handedOut] at h
          rw [size?, if_neg (by omega), hpast]
      | release other => rw [size?, hpast, ite_self]
      | write other offset data | read other offset length => rw [size?, hpast]

/-- A buffer that was taken back does not come back. -/
theorem size?_cons_eq_none (h : id ≤ handedOut past) (hsize : size? past id = none)
    (c : MemoryCall) : size? (c :: past) id = none := by
  cases c with
  | allocate bytes | allocateFrom data => rw [size?, if_neg (by omega), hsize]
  | release other => rw [size?, hsize, ite_self]
  | write other offset data | read other offset length => rw [size?, hsize]

theorem size?_append_eq_none (h : id ≤ handedOut past) (hsize : size? past id = none)
    (later : List MemoryCall) : size? (later ++ past) id = none := by
  induction later with
  | nil => exact hsize
  | cons c rest ih =>
      exact size?_cons_eq_none (Nat.le_trans h (handedOut_le_append rest past)) ih c

theorem not_fits (h : size? past id = none) (offset length : Nat) :
    ¬ Fits past id offset length := by
  rintro ⟨size, hsize, -⟩
  rw [h] at hsize
  cases hsize

/-- Nothing was written to a buffer before it was handed out. -/
theorem byte_eq_zero (h : handedOut past < id) (i : Nat) : byte past id i = 0 := by
  induction past with
  | nil => rfl
  | cons c past ih =>
      have hpast := Nat.lt_of_le_of_lt (handedOut_le c past) h
      cases c with
      | allocate bytes | release other | read other offset length => exact ih hpast
      | allocateFrom data =>
          simp only [handedOut] at h
          rw [byte, if_neg (by omega), ih hpast]
      | write other offset data =>
          rw [byte, if_neg fun hw => not_fits (size?_eq_none hpast) _ _ hw.2.1, ih hpast]

/-! A buffer with data is one that was handed out and then written to. -/

theorem le_rounded (bytes : Nat) : bytes ≤ rounded bytes := by
  unfold rounded
  omega

theorem fits_allocate (past : List MemoryCall) (bytes : Nat) :
    Fits (.allocate bytes :: past) (handedOut past + 1) 0 bytes ↔ 4 ∣ bytes := by
  simp only [Fits, size?, if_pos, Option.mem_some_iff, exists_eq_left', Nat.dvd_zero, true_and,
    Nat.zero_add, le_rounded, and_true]

theorem byte_allocateFrom (past : List MemoryCall) (data : List UInt8) (id i : Nat) :
    byte (.allocateFrom data :: past) id i
      = byte (.write (handedOut past + 1) 0 data :: .allocate data.length :: past) id i := by
  rw [byte, byte]
  refine if_congr ?_ rfl rfl
  refine and_congr_right fun hid => ?_
  rw [hid, fits_allocate, Nat.zero_add]
  exact and_congr_right fun _ => (and_iff_right (Nat.zero_le i)).symm

theorem contents?_allocateFrom (past : List MemoryCall) (data : List UInt8) (id : Nat) :
    contents? (.allocateFrom data :: past) id
      = contents? (.write (handedOut past + 1) 0 data :: .allocate data.length :: past) id := by
  rw [contents?, contents?, funext (byte_allocateFrom past data id)]
  rfl

/-! The numbers that are handed out. -/

theorem buffer?_reply (c : MemoryCall) {new : Nat} (h : new ∈ (reply past c).buffer?) :
    new = handedOut past + 1 ∧ handedOut (c :: past) = handedOut past + 1 := by
  -- Two calls hand out a buffer, and one of these can be refused for its length.
  cases c with
  | allocate bytes =>
      cases h
      exact ⟨rfl, rfl⟩
  | allocateFrom data =>
      rw [reply] at h
      split at h
      · cases h
        exact ⟨rfl, rfl⟩
      · cases h
  | release other => cases h
  | write other offset data =>
      rw [reply] at h
      split at h <;> cases h
  | read other offset length =>
      rw [reply] at h
      split at h <;> cases h

/-- They only go up. -/
theorem pairwise_replies (calls : List MemoryCall) (past : List MemoryCall) :
    (∀ new ∈ (replies past calls).filterMap MemoryReply.buffer?, handedOut past < new)
      ∧ ((replies past calls).filterMap MemoryReply.buffer?).Pairwise (· < ·) := by
  -- Induction on the calls: the count never falls, and a new number is one above it.
  induction calls generalizing past with
  | nil => exact ⟨fun _ h => absurd h List.not_mem_nil, .nil⟩
  | cons c rest ih =>
      rcases ih (c :: past) with ⟨hlater, hpairs⟩
      have hnext := handedOut_le c past
      rw [replies, List.filterMap_cons]
      cases hnew : (reply past c).buffer? with
      | none => exact ⟨fun new h => Nat.lt_of_le_of_lt hnext (hlater new h), hpairs⟩
      | some new =>
          rcases buffer?_reply c hnew with ⟨rfl, hcount⟩
          rw [hcount] at hlater
          refine ⟨fun other h => ?_, List.pairwise_cons.mpr ⟨hlater, hpairs⟩⟩
          rcases List.mem_cons.mp h with rfl | h
          · exact Nat.lt_succ_self _
          · exact Nat.lt_trans (Nat.lt_succ_self _) (hlater other h)

/-- The buffers that a call is not about are as before. -/
theorem contents?_of_ne {c : MemoryCall} (hid : id ≠ c.target (handedOut past + 1)) :
    contents? (c :: past) id = contents? past id := by
  -- A buffer is its size and its bytes, and none of the calls changes the size of one that is
  -- there.
  have hbytes : (∀ i, byte (c :: past) id i = byte past id i) →
      (size? past id).map (fun size => (List.range size).map (byte (c :: past) id))
        = contents? past id :=
    fun h => by rw [contents?, funext h]
  cases c with
  | allocate bytes | release other =>
      simp only [target] at hid
      rw [contents?, size?, if_neg hid]
      exact hbytes fun _ => rfl
  | allocateFrom data =>
      simp only [target] at hid
      rw [contents?, size?, if_neg hid]
      exact hbytes fun _ => if_neg fun hw => hid hw.1
  | write other offset data =>
      rw [contents?, size?]
      exact hbytes fun _ => if_neg fun hw => hid hw.1
  | read other offset length => rfl

theorem contents?_allocate (past : List MemoryCall) (bytes : Nat) :
    contents? (.allocate bytes :: past) (handedOut past + 1)
      = some (List.replicate (rounded bytes) 0) := by
  rw [contents?, size?, if_pos rfl, Option.map_some, Option.some_inj, List.eq_replicate_iff]
  refine ⟨by rw [List.length_map, List.length_range], fun x hx => ?_⟩
  rcases List.mem_map.mp hx with ⟨i, -, rfl⟩
  exact byte_eq_zero (Nat.lt_succ_self (handedOut past)) i

/-- A write that does not fit. -/
theorem contents?_write_of_not_fits {offset : Nat} {data : List UInt8}
    (h : ¬ Fits past id offset data.length) (other : Nat) :
    contents? (.write id offset data :: past) other = contents? past other := by
  by_cases hid : other = id
  · subst hid
    rw [contents?, size?, contents?]
    exact congrArg (Option.map · _) (funext fun size =>
      List.map_congr_left fun i _ => if_neg fun hw => h hw.2.1)
  · exact contents?_of_ne hid

end MemoryCall

/-! ### The device -/

namespace Memory

variable {m : Memory} {id : Nat} {ws : Words} {offset : Nat}

theorem writeBytes_eq {data : List UInt8} (h : m.transfer id offset data.length = .ok ws) :
    m.writeBytes id offset data
      = .ok (m.store id (ws.overlay (offset / 4) (Words.ofBytes data))) := by
  rw [writeBytes, h]
  rfl

theorem writeBytes_error {data : List UInt8} {e : Error}
    (h : m.transfer id offset data.length = .error e) : m.writeBytes id offset data = .error e := by
  rw [writeBytes, h]
  rfl

theorem readBytes_eq {length : Nat} (h : m.transfer id offset length = .ok ws) :
    m.readBytes id offset length
      = .ok (Words.toBytes (ws.extract (offset / 4) (offset / 4 + length / 4))) := by
  rw [readBytes, h]
  rfl

theorem readBytes_error {length : Nat} {e : Error}
    (h : m.transfer id offset length = .error e) : m.readBytes id offset length = .error e := by
  rw [readBytes, h]
  rfl

end Memory

namespace Device

namespace Serves

variable {d : Device} {h : HostDevice} {id offset : Nat}

/-- Bytes are replaced. -/
theorem writeBytes_gives (hd : d.Serves h) {data : List UInt8} {m : Memory}
    (hm : h.memory.writeBytes id offset data = .ok m) :
    (writeBytes id offset data).Gives d fun _ d' => d'.Serves { h with memory := m } := by
  refine (hd.ask_gives .toDevice).bind fun _ d₁ hd₁ => ?_
  refine (hd₁.onHost_gives (P := fun _ h' => h' = { h with memory := m }) ?_).bind ?_
  · refine Exec.Yields.state.gives ?_
    refine (Exec.Yields.check hm).gives ?_
    exact Exec.Gives.update rfl
  · rintro _ d₂ ⟨_, rfl, hd₂⟩
    exact Exec.Gives.update ⟨hd₂.refuse, hd₂.host⟩

theorem onHost_stops {α : Type} {act : Exec HostDevice α} {e : Error} (hd : d.Serves h)
    (hact : act.Stops h (.error e) (· = h)) : (onHost act).Stops d (.error e) (·.Serves h) := by
  refine Exec.Stops.focus ?_
  rw [hd.host]
  refine hact.mono ?_
  rintro _ rfl
  exact ⟨hd.refuse, rfl⟩

/-- A transfer that is refused changes nothing. -/
theorem writeBytes_stops (hd : d.Serves h) {data : List UInt8} {e : Error}
    (hm : h.memory.writeBytes id offset data = .error e) :
    (writeBytes id offset data).Stops d (.error e) (·.Serves h) := by
  refine Exec.Stops.after (hd.ask_gives .toDevice) fun _ d₁ hd₁ => ?_
  refine (hd₁.onHost_stops ?_).bind
  refine Exec.Yields.state.stops ?_
  exact (Exec.Stops.check (P := (· = h)) hm rfl).bind

/-- Bytes are read as they are. -/
theorem readBytes_gives (hd : d.Serves h) {length : Nat} {data : List UInt8}
    (hm : h.memory.readBytes id offset length = .ok data) :
    (readBytes id offset length).Gives d fun r d' => r = data ∧ d'.Serves h := by
  refine (hd.ask_gives .fromDevice).bind fun _ d₁ hd₁ => ?_
  refine (hd₁.onHost_gives (P := fun r h' => r = data ∧ h' = h) ?_).bind ?_
  · refine Exec.Yields.state.gives ?_
    exact Exec.Gives.check hm ⟨rfl, rfl⟩
  · rintro r d₂ ⟨h, ⟨rfl, rfl⟩, hd₂⟩
    exact Exec.Yields.update.gives (Exec.Gives.pure ⟨rfl, hd₂.refuse, hd₂.host⟩)

theorem readBytes_stops (hd : d.Serves h) {length : Nat} {e : Error}
    (hm : h.memory.readBytes id offset length = .error e) :
    (readBytes id offset length).Stops d (.error e) (·.Serves h) := by
  refine Exec.Stops.after (hd.ask_gives .fromDevice) fun _ d₁ hd₁ => ?_
  refine (hd₁.onHost_stops ?_).bind
  refine Exec.Yields.state.stops ?_
  exact Exec.Stops.check hm rfl

end Serves

/-- The memory of the device is the one of these calls, the newest first. A call that was
    refused is among them, and what it did to the memory is nothing. -/
structure Records (d : Device) (past : List MemoryCall) : Prop where
  refuse : d.refuse = none
  next : d.host.memory.nextId = MemoryCall.handedOut past + 1
  contents : ∀ id, d.host.memory.bytes? id = MemoryCall.contents? past id

theorem records_ofLimits (limits : Limits) : (ofLimits limits).Records [] where
  refuse := rfl
  next := rfl
  contents id := by
    cases id <;> rfl

namespace Records

open MemoryCall

variable {d : Device} {past : List MemoryCall} {id : Nat}

theorem serves (h : d.Records past) : d.Serves d.host := ⟨h.refuse, rfl⟩

theorem words?_eq_none (h : d.Records past) (hsize : size? past id = none) :
    d.host.memory.words? id = none := by
  have hid := h.contents id
  rw [contents?, hsize] at hid
  exact Option.map_eq_none_iff.mp hid

/-- A buffer in use has its bytes. -/
theorem exists_words (h : d.Records past) {size : Nat} (hsize : size? past id = some size) :
    ∃ ws, d.host.memory.words? id = some ws ∧ 4 * ws.size = size
      ∧ ws.toBytes = (List.range size).map (byte past id) := by
  have hid := h.contents id
  rw [contents?, hsize] at hid
  rcases Option.map_eq_some_iff.mp hid with ⟨ws, hws, hbytes⟩
  refine ⟨ws, hws, ?_, hbytes⟩
  rw [← Words.length_toBytes, hbytes, List.length_map, List.length_range]

/-- A transfer that fits is possible. -/
theorem transfer_eq (h : d.Records past) {offset length : Nat}
    (hfits : Fits past id offset length) :
    ∃ ws size, d.host.memory.transfer id offset length = .ok ws
      ∧ d.host.memory.words? id = some ws ∧ size? past id = some size ∧ 4 * ws.size = size
      ∧ ws.toBytes = (List.range size).map (byte past id) := by
  rcases hfits with ⟨size, hsize, hoffset, hlength, hend⟩
  rcases h.exists_words hsize with ⟨ws, hws, hlen, hbytes⟩
  refine ⟨ws, size, ?_, hws, hsize, hlen, hbytes⟩
  rw [Memory.transfer, Memory.words_eq hws]
  simp only [Bind.bind, Except.bind]
  rw [if_neg (by omega)]

/-- Any other is not. -/
theorem transfer_error (h : d.Records past) {offset length : Nat}
    (hfits : ¬ Fits past id offset length) :
    d.host.memory.transfer id offset length = .error (fault past id offset length) := by
  cases hsize : size? past id with
  | none =>
      rw [Memory.transfer, Memory.words, h.words?_eq_none hsize, fault, hsize]
      rfl
  | some size =>
      rcases h.exists_words hsize with ⟨ws, hws, hlen, -⟩
      have hout : ¬ (4 ∣ offset ∧ 4 ∣ length ∧ offset + length ≤ size) :=
        fun hin => hfits ⟨size, hsize, hin⟩
      rw [Memory.transfer, Memory.words_eq hws, fault, hsize]
      simp only [Bind.bind, Except.bind]
      rw [if_pos (by omega), Nat.mul_comm, hlen]

/-- A buffer that was written to. The words of the memory with the data laid over them are,
    byte by byte, what the calls with this write at their head say about the buffer. -/
theorem contents_write {ws : Words} {size offset : Nat} {data : List UInt8}
    (hfits : Fits past id offset data.length) (hsize : size? past id = some size)
    (hlen : 4 * ws.size = size) (hbytes : ws.toBytes = (List.range size).map (byte past id)) :
    (ws.overlay (offset / 4) (Words.ofBytes data)).toBytes
      = (List.range size).map (byte (.write id offset data :: past) id) := by
  -- A write that fits is whole words inside the buffer, so the split of an offset into a word and
  -- a byte never leaves a rest.
  have hbound : 4 ∣ offset ∧ 4 ∣ data.length ∧ offset + data.length ≤ size := by
    rcases hfits with ⟨n, hn, hin⟩
    rw [hsize] at hn
    cases hn
    exact hin
  have hdata := Words.size_ofBytes hbound.2.1
  refine List.ext_getElem? fun i => ?_
  rw [Words.getElem?_toBytes_overlay (by omega), Words.toBytes_ofBytes hbound.2.1, hbytes,
    List.getElem?_map, List.getElem?_map, hdata, Nat.mul_div_cancel' hbound.1]
  -- A byte inside the written range comes from the data, every other one from the contents
  -- before, and past the end there is none on either side.
  by_cases hin : offset ≤ i ∧ i < offset + data.length
  · rw [if_pos hin, List.getElem?_range (by omega), Option.map_some, byte,
      if_pos ⟨rfl, hfits, hin⟩, List.getD_eq_getElem?_getD,
      List.getElem?_eq_getElem (by omega : i - offset < data.length), Option.getD_some]
  · rw [if_neg hin]
    by_cases hi : i < size
    · rw [List.getElem?_range hi, Option.map_some, Option.map_some, byte,
        if_neg fun hw => hin hw.2.2]
    · rw [List.getElem?_eq_none (by rw [List.length_range]; omega)]
      rfl

/-! #### One call -/

theorem allocate_gives (h : d.Records past) (bytes : Nat) :
    (allocate bytes).Gives d fun id d' =>
      id = handedOut past + 1 ∧ d'.Records (.allocate bytes :: past) := by
  refine (h.serves.allocate_gives bytes).mono ?_
  rintro _ d' ⟨rfl, hd'⟩
  refine ⟨h.next, hd'.refuse, ?_, fun id => ?_⟩
  · rw [hd'.host, handedOut, ← h.next]
    exact Array.size_push _
  · rw [hd'.host, Memory.bytes?, Memory.words?_allocate, h.next]
    by_cases hid : id = handedOut past + 1
    · rw [if_pos hid, hid, contents?_allocate, Option.map_some, Words.toBytes_replicate_zero]
      rfl
    · rw [if_neg hid, contents?_of_ne hid]
      exact h.contents id

theorem release_records (h : d.Records past) (id : Nat) :
    (release id d).Records (.release id :: past) where
  refuse := h.refuse
  next := (Array.size_setIfInBounds ..).trans h.next
  contents other := by
    show ((d.host.memory.release id).words? other).map Words.toBytes = _
    rw [Memory.words?_release]
    by_cases hid : other = id
    · rw [if_pos hid.symm, contents?, size?, if_pos hid]
      rfl
    · rw [if_neg (Ne.symm hid), contents?_of_ne hid]
      exact h.contents other

/-- Bytes that fit are written, and nothing else changes. -/
theorem writeBytes_gives (h : d.Records past) {offset : Nat} {data : List UInt8}
    (hfits : Fits past id offset data.length) :
    (writeBytes id offset data).Gives d fun _ d' => d'.Records (.write id offset data :: past) := by
  rcases h.transfer_eq hfits with ⟨ws, size, htransfer, hws, hsize, hlen, hbytes⟩
  refine (h.serves.writeBytes_gives (Memory.writeBytes_eq htransfer)).mono fun _ d' hd' => ?_
  refine ⟨hd'.refuse, ?_, fun other => ?_⟩
  · rw [hd'.host]
    exact (Array.size_setIfInBounds ..).trans h.next
  · rw [hd'.host, Memory.bytes?, Memory.words?_store other hws]
    by_cases hid : other = id
    · rw [if_pos hid.symm, hid, contents?, size?, hsize, Option.map_some, Option.map_some,
        contents_write hfits hsize hlen hbytes]
    · rw [if_neg (Ne.symm hid), contents?_of_ne hid]
      exact h.contents other

/-- Bytes that do not fit are refused, and nothing changes. -/
theorem writeBytes_stops (h : d.Records past) {offset : Nat} {data : List UInt8}
    (hfits : ¬ Fits past id offset data.length) :
    (writeBytes id offset data).Stops d (.error (fault past id offset data.length)) fun d' =>
      d'.Records (.write id offset data :: past) ∧ d'.host = d.host := by
  have hstop := h.serves.writeBytes_stops (Memory.writeBytes_error (h.transfer_error hfits))
  refine hstop.mono fun d' hd' => ⟨⟨hd'.refuse, ?_, fun other => ?_⟩, hd'.host⟩
  · rw [hd'.host]
    exact h.next
  · rw [hd'.host, contents?_write_of_not_fits hfits]
    exact h.contents other

/-- The device after it was only read. -/
theorem of_read (h : d.Records past) {d' : Device} (hd' : d'.Serves d.host) (offset length : Nat) :
    d'.Records (.read id offset length :: past) :=
  ⟨hd'.refuse, by rw [hd'.host]; exact h.next,
        fun other => by rw [hd'.host]; exact h.contents other⟩

theorem readBytes_gives (h : d.Records past) {offset length : Nat}
    (hfits : Fits past id offset length) :
    (readBytes id offset length).Gives d fun r d' =>
      r = (List.range length).map (fun k => byte past id (offset + k))
        ∧ d'.Records (.read id offset length :: past) := by
  rcases h.transfer_eq hfits with ⟨ws, size, htransfer, hws, hsize, hlen, hbytes⟩
  have hbound : 4 ∣ offset ∧ 4 ∣ length ∧ offset + length ≤ size := by
    rcases hfits with ⟨n, hn, hin⟩
    rw [hsize] at hn
    cases hn
    exact hin
  refine (h.serves.readBytes_gives (Memory.readBytes_eq htransfer)).mono ?_
  rintro _ d' ⟨rfl, hd'⟩
  refine ⟨?_, h.of_read hd' offset length⟩
  -- The words are cut out first and turned into bytes afterwards; the claim cuts the bytes.
  rw [Words.toBytes_extract, Nat.add_sub_cancel_left, Nat.mul_div_cancel' hbound.1,
    Nat.mul_div_cancel' hbound.2.1, hbytes]
  refine List.ext_getElem? fun i => ?_
  by_cases hi : i < length
  · rw [List.getElem?_take_of_lt hi, List.getElem?_drop, List.getElem?_map, List.getElem?_map,
      List.getElem?_range hi, List.getElem?_range (by omega)]
    rfl
  · rw [List.getElem?_eq_none (by rw [List.length_take]; omega),
      List.getElem?_eq_none (by rw [List.length_map, List.length_range]; omega)]

theorem readBytes_stops (h : d.Records past) {offset length : Nat}
    (hfits : ¬ Fits past id offset length) :
    (readBytes id offset length).Stops d (.error (fault past id offset length)) fun d' =>
      d'.Records (.read id offset length :: past) ∧ d'.host = d.host :=
  (h.serves.readBytes_stops (Memory.readBytes_error (h.transfer_error hfits))).mono
    fun _ hd' => ⟨h.of_read hd' offset length, hd'.host⟩

theorem of_allocateFrom {data : List UInt8}
    (h : d.Records (.write (handedOut past + 1) 0 data :: .allocate data.length :: past)) :
    d.Records (.allocateFrom data :: past) :=
  ⟨h.refuse, h.next, fun id => by rw [contents?_allocateFrom]; exact h.contents id⟩

/-- A buffer with data, which has to come in whole words. -/
theorem allocateFrom_gives (h : d.Records past) {data : List UInt8} (hdata : 4 ∣ data.length) :
    (allocateFrom data).Gives d fun id d' =>
      id = handedOut past + 1 ∧ d'.Records (.allocateFrom data :: past) := by
  refine (h.allocate_gives data.length).bind ?_
  rintro _ d₁ ⟨rfl, h₁⟩
  refine (h₁.writeBytes_gives ((fits_allocate past data.length).mpr hdata)).bind fun _ d₂ h₂ => ?_
  exact Exec.Gives.pure ⟨rfl, h₂.of_allocateFrom⟩

/-- With other data there is an error, but the buffer was handed out. -/
theorem allocateFrom_stops (h : d.Records past) {data : List UInt8} (hdata : ¬ 4 ∣ data.length) :
    (allocateFrom data).Stops d
      (.error (.badTransfer data.length 0 (handedOut past + 1) (rounded data.length)))
      fun d' => d'.Records (.allocateFrom data :: past) := by
  refine Exec.Stops.after (h.allocate_gives data.length) ?_
  rintro _ d₁ ⟨rfl, h₁⟩
  have hstop := h₁.writeBytes_stops (mt (fits_allocate past data.length).mp hdata)
  rw [fault, size?, if_pos rfl] at hstop
  exact (hstop.mono fun _ h₂ => h₂.1.of_allocateFrom).bind

/-- Every call is replied to as the calls so far say, and one that is refused has moved
    nothing. This is the step from which a whole session follows by induction: `Records` is
    the invariant that it hands on. -/
theorem answer_gives (h : d.Records past) (c : MemoryCall) :
    c.answer.Gives d fun r d' => r = c.reply past ∧ d'.Records (c :: past)
      ∧ (c.IsTransfer → (∃ e, r = .refused e) → d'.host = d.host) := by
  -- One case per call. The refusals of the two transfers are decided by the calls so far and not
  -- by the memory, which is why `Fits` is split on and not the reply.
  cases c with
  | allocate bytes =>
      refine ((h.allocate_gives bytes).bind ?_).onError
      rintro _ d' ⟨rfl, h'⟩
      exact Exec.Gives.pure ⟨rfl, h', False.elim⟩
  | allocateFrom data =>
      by_cases hdata : 4 ∣ data.length
      · refine ((h.allocateFrom_gives hdata).bind ?_).onError
        rintro _ d' ⟨rfl, h'⟩
        exact Exec.Gives.pure ⟨by rw [reply, if_pos hdata], h', False.elim⟩
      · refine (h.allocateFrom_stops hdata).bind.onError fun d' h' => ?_
        exact Exec.Gives.pure ⟨by rw [reply, if_neg hdata], h', False.elim⟩
  | release id =>
      refine ((Exec.Gives.update (P := fun _ d' => d' = release id d) rfl).bind ?_).onError
      rintro _ _ rfl
      exact Exec.Gives.pure ⟨rfl, h.release_records id, False.elim⟩
  | write id offset data =>
      by_cases hfits : Fits past id offset data.length
      · refine ((h.writeBytes_gives hfits).bind fun _ d' h' => ?_).onError
        refine Exec.Gives.pure ⟨by rw [reply, if_pos hfits], h', ?_⟩
        rintro - ⟨e, he⟩
        cases he
      · refine (h.writeBytes_stops hfits).bind.onError fun d' h' => ?_
        exact Exec.Gives.pure ⟨by rw [reply, if_neg hfits], h'.1, fun _ _ => h'.2⟩
  | read id offset length =>
      by_cases hfits : Fits past id offset length
      · refine ((h.readBytes_gives hfits).bind ?_).onError
        rintro _ d' ⟨rfl, h'⟩
        refine Exec.Gives.pure ⟨by rw [reply, if_pos hfits], h', ?_⟩
        rintro - ⟨e, he⟩
        cases he
      · refine (h.readBytes_stops hfits).bind.onError fun d' h' => ?_
        exact Exec.Gives.pure ⟨by rw [reply, if_neg hfits], h'.1, fun _ _ => h'.2⟩

/-- So is every call of a session. The induction is on the calls, with all that came before
    as the past. -/
theorem session_gives (calls : List MemoryCall) {past : List MemoryCall} (h : d.Records past) :
    (session calls).Gives d fun rs d' =>
      rs = replies past calls ∧ d'.Records (calls.reverse ++ past) := by
  induction calls generalizing d past with
  | nil => exact Exec.Gives.pure ⟨rfl, h⟩
  | cons c rest ih =>
      rw [session, List.mapM_cons]
      refine (h.answer_gives c).bind ?_
      rintro _ d₁ ⟨rfl, h₁, -⟩
      refine (ih h₁).bind ?_
      rintro _ d₂ ⟨rfl, h₂⟩
      refine Exec.Gives.pure ⟨rfl, ?_⟩
      rw [List.reverse_cons, List.append_assoc]
      exact h₂

end Records

end Device

/-- The memory of a device that nobody else uses, through any calls: they are
    replied to, and the buffers have the bytes, that the calls so far say. The
    numbers that are handed out are all different, a number that was taken back
    stands for nothing for good, and one more call changes no buffer but the one
    it is about, and nothing at all if it is a transfer that is refused. -/
theorem session_isolates_bytes (limits : Limits) (j : Journal) (calls : List MemoryCall) :
    ∃ d j', MemoryCall.session calls ⟨.ofLimits limits, j⟩
        = .ok (MemoryCall.replies [] calls) ⟨d, j'⟩
      ∧ (∀ id, d.host.memory.bytes? id = MemoryCall.contents? calls.reverse id)
      ∧ ((MemoryCall.replies [] calls).filterMap MemoryReply.buffer?).Nodup
      ∧ (∀ before id later, calls = before ++ .release id :: later →
        MemoryCall.size? before.reverse id ≠ none → d.host.memory.bytes? id = none)
      ∧ ∀ c : MemoryCall, ∃ d' j'', c.answer ⟨d, j'⟩
          = .ok (c.reply calls.reverse) ⟨d', j''⟩
        ∧ (∀ id, id ≠ c.target (MemoryCall.handedOut calls.reverse + 1) →
          d'.host.memory.bytes? id = d.host.memory.bytes? id)
        ∧ (c.IsTransfer → (∃ e, c.reply calls.reverse = .refused e) → d'.host = d.host) := by
  rcases (Device.records_ofLimits limits).session_gives calls j with ⟨_, d, j', hrun, rfl, hd⟩
  rw [List.append_nil] at hd
  refine ⟨d, j', hrun, hd.contents, ?_, ?_, fun c => ?_⟩
  · exact (MemoryCall.pairwise_replies calls []).2.imp Nat.ne_of_lt
  · rintro before id later rfl hlive
    -- A buffer in use was handed out, so its number is not the next one any more.
    have hid : id ≤ MemoryCall.handedOut before.reverse := by
      by_contra hlt
      exact hlive (MemoryCall.size?_eq_none (Nat.lt_of_not_le hlt))
    have hcount : id ≤ MemoryCall.handedOut (.release id :: before.reverse) := hid
    have hdead := MemoryCall.size?_append_eq_none hcount (if_pos rfl) later.reverse
    rw [hd.contents, MemoryCall.contents?, List.reverse_append, List.reverse_cons,
      List.append_assoc, List.singleton_append, hdead]
    rfl
  · rcases hd.answer_gives c j' with ⟨_, d', j'', hanswer, rfl, hd', hkeep⟩
    refine ⟨d', j'', hanswer, fun id hid => ?_, hkeep⟩
    rw [hd'.contents, MemoryCall.contents?_of_ne hid, hd.contents]

/-- Six bytes make two words. Once the buffer was taken back, neither the next
    buffer nor a late write brings it back. -/
theorem session_isolates_bytes_of_released : ∃ d j',
    MemoryCall.session
        [.allocate 6, .write 1 4 [7, 8, 9, 10], .read 1 0 8, .release 1, .allocateFrom [1, 2, 3, 4]]
        ⟨.ofLimits {}, #[]⟩
      = .ok [.buffer 1, .done, .bytes [0, 0, 0, 0, 7, 8, 9, 10], .done, .buffer 2] ⟨d, j'⟩
    ∧ d.host.memory.bytes? 1 = none ∧ d.host.memory.bytes? 2 = some [1, 2, 3, 4]
    ∧ ∃ d' j'', (MemoryCall.write 1 0 [5, 6, 7, 8]).answer ⟨d, j'⟩
        = .ok (.refused (.unknownBuffer 1)) ⟨d', j''⟩ ∧ d'.host = d.host := by
  rcases session_isolates_bytes {} #[]
      [.allocate 6, .write 1 4 [7, 8, 9, 10], .read 1 0 8, .release 1, .allocateFrom [1, 2, 3, 4]]
    with ⟨d, j', hrun, hcontents, -, hreleased, hcall⟩
  refine ⟨d, j', ?_, ?_, ?_, ?_⟩
  · rw [hrun]
    rfl
  · exact hreleased [.allocate 6, .write 1 4 [7, 8, 9, 10], .read 1 0 8] 1 _ rfl (by decide)
  · exact hcontents 2
  · rcases hcall (.write 1 0 [5, 6, 7, 8]) with ⟨d', j'', hanswer, -, hkeep⟩
    exact ⟨d', j'', hanswer, hkeep trivial ⟨_, rfl⟩⟩

end BoundedSimplex
