import BoundedSimplex.Proofs.Stores

/-!
# Setting Bounds as Transfers

What a call that sets bounds does to a device, transfer by transfer.

A bound of a variable is a word in one buffer and a bit in a word of another, and
a call that sets bounds moves these words one at a time. So a call comes down to
a list of changes of single words of the memory, in order. The list is the same on
every device: what the mask becomes is a function of what it was, and that is all
a call takes from the device. `BoundEdit.changes` is this list.

Two things follow. Changes of different words commute, and setting and clearing
different bits of one word commute as well, so calls that set different bounds do.
And a call whose last transfers are refused has made the first changes of its list.

## Main definitions

* `Memory.modifyWord`: A memory with one word changed.
* `Device.looked`, `Device.put`: A device after one transfer.
* `BoundEdit.changes`: The words that a call changes.
* `Bounds.Resident.InMemory`: The buffers of a store lie in a memory.
* `Device.partly`, `Device.edited`: A device after some of the changes, and after all.
* `BoundEdit.Comes`: How a call can end.

## Theorems

* `Memory.modifyWord_comm`, `withBit_comm`: Changes that commute.
* `Buffer.get_eq`, `Buffer.set_eq`: A transfer is made or refused.
* `BoundEdit.onDevice_comes`: A call makes its changes in order, until one is refused.
-/

namespace BoundedSimplex

/-! ### Words of a memory -/

/-- Changes of different entries commute, and so do changes of one entry that
    commute. -/
theorem modify_comm {α : Type} (xs : Array α) {i i' : Nat} {f g : α → α}
    (h : i = i' → ∀ x, f (g x) = g (f x)) :
    (xs.modify i f).modify i' g = (xs.modify i' g).modify i f := by
  refine Array.ext_getElem? fun k => ?_
  simp only [Array.getElem?_modify]
  by_cases hi : i = k
  · by_cases hi' : i' = k
    · simp only [if_pos hi, if_pos hi', Option.map_map]
      exact congrArg (Option.map · _) (funext fun x => (h (hi.trans hi'.symm) x).symm)
    · simp only [if_neg hi']
  · simp only [if_neg hi]

namespace Memory

/-- A word of a buffer. -/
def word? (m : Memory) (id i : Nat) : Option UInt32 := (m.words? id).bind (·[i]?)

/-- A memory with one word changed. Outside of a buffer this does nothing. -/
def modifyWord (m : Memory) (id i : Nat) (f : UInt32 → UInt32) : Memory :=
  ⟨m.buffers.modify id (Option.map fun ws => ws.modify i f)⟩

variable {m : Memory} {id i id' i' : Nat} {f g : UInt32 → UInt32} {w : UInt32}

theorem word?_eq_some : m.word? id i = some w ↔ ∃ ws, m.words? id = some ws ∧ ws[i]? = some w :=
  Option.bind_eq_some_iff

theorem words?_modifyWord (m : Memory) (id i : Nat) (f : UInt32 → UInt32) (other : Nat) :
    (m.modifyWord id i f).words? other
      = if id = other then (m.words? other).map (·.modify i f) else m.words? other := by
  unfold words? modifyWord
  rw [Array.getElem?_modify]
  by_cases hid : id = other
  · rw [if_pos hid, if_pos hid]
    cases m.buffers[other]? with
    | none => rfl
    | some b => cases b <;> rfl
  · rw [if_neg hid, if_neg hid]

theorem word?_modifyWord (m : Memory) (id i : Nat) (f : UInt32 → UInt32) (id' i' : Nat) :
    (m.modifyWord id i f).word? id' i'
      = if id = id' ∧ i = i' then (m.word? id' i').map f else m.word? id' i' := by
  unfold word?
  rw [words?_modifyWord]
  by_cases hid : id = id'
  · rw [if_pos hid, Option.bind_map]
    cases m.words? id' with
    | none => simp only [Option.bind_none, Option.map_none, ite_self]
    | some ws =>
        simp only [Option.bind_some, Function.comp, Array.getElem?_modify, hid, true_and]
  · rw [if_neg hid, if_neg fun h => hid h.1]

/-- Changes of different words commute, and so do changes of one word that commute. The
    second case is that of the mask, in which two bounds have different bits. -/
theorem modifyWord_comm (m : Memory) (h : id = id' → i = i' → ∀ w, f (g w) = g (f w)) :
    (m.modifyWord id i f).modifyWord id' i' g = (m.modifyWord id' i' g).modifyWord id i f := by
  refine congrArg Memory.mk (modify_comm m.buffers fun hid b => ?_)
  rw [Option.map_map, Option.map_map]
  exact congrArg (Option.map · b) (funext fun ws => (modify_comm ws (h hid)).symm)

/-- Only what becomes of the word that is there counts. -/
theorem modifyWord_congr (h : m.word? id i = some w) (hfg : f w = g w) :
    m.modifyWord id i f = m.modifyWord id i g := by
  refine congrArg Memory.mk (Array.ext_getElem? fun k => ?_)
  rw [Array.getElem?_modify, Array.getElem?_modify]
  -- Another buffer is not touched, and neither is another word of this one.
  by_cases hk : id = k
  · rw [if_pos hk, if_pos hk, ← hk]
    rcases word?_eq_some.mp h with ⟨ws, hws, hw⟩
    have hbuffer := Option.join_eq_some_iff.mp (show (m.buffers[id]?).join = some ws from hws)
    rw [hbuffer, Option.map_some, Option.map_some, Option.map_some, Option.map_some]
    refine congrArg (some ∘ some) (Array.ext_getElem? fun u => ?_)
    rw [Array.getElem?_modify, Array.getElem?_modify]
    by_cases hu : i = u
    · rw [if_pos hu, if_pos hu, ← hu, hw, Option.map_some, Option.map_some, hfg]
    · rw [if_neg hu, if_neg hu]
  · rw [if_neg hk, if_neg hk]

/-- A word that is written. -/
theorem write_word (h : m.word? id i = some w) (x : UInt32) :
    m.write id (i * 4) #[x] = .ok (m.modifyWord id i fun _ => x) := by
  rcases word?_eq_some.mp h with ⟨ws, hws, hw⟩
  rcases Array.getElem?_eq_some_iff.mp hw with ⟨hi, -⟩
  have hlt : id < m.buffers.size := lt_nextId hws
  have hbuffer := Option.join_eq_some_iff.mp (show (m.buffers[id]?).join = some ws from hws)
  rw [write_eq hws (show i + #[x].size ≤ ws.size from hi), Words.overlay_singleton hi,
    Words.setIfInBounds_eq_modify]
  refine congrArg (Except.ok ∘ Memory.mk) (Array.ext_getElem? fun k => ?_)
  rw [Array.getElem?_setIfInBounds, Array.getElem?_modify]
  by_cases hk : id = k
  · rw [if_pos hk, if_pos hk, if_pos hlt, ← hk, hbuffer]
    rfl
  · rw [if_neg hk, if_neg hk]

/-- A word that is read. -/
theorem read_word (h : m.word? id i = some w) : m.read id (i * 4) 1 = .ok #[w] := by
  rcases word?_eq_some.mp h with ⟨ws, hws, hw⟩
  rcases Array.getElem?_eq_some_iff.mp hw with ⟨hi, rfl⟩
  rw [read_eq hws (show i + 1 ≤ ws.size from hi)]
  refine congrArg Except.ok (Array.ext_getElem? fun k => ?_)
  rw [Array.getElem?_extract]
  by_cases hk : k = 0
  · rw [hk, if_pos (by omega), Nat.add_zero, hw]
    rfl
  · rw [if_neg (by omega), Array.getElem?_eq_none]
    show 1 ≤ k
    omega

end Memory

/-! ### Single transfers -/

namespace Device

/-- A device that was asked for something. -/
def asked (r : Request) (d : Device) : Device := { d with tally := d.tally.add r }

/-- A device from which a word was read. -/
def looked (d : Device) : Device :=
  { d with
    tally := d.tally.add .fromDevice
    traffic := { d.traffic with fromDevice := d.traffic.fromDevice + 4 } }

/-- A device to which a word was written. -/
def put (id i : Nat) (w : UInt32) (d : Device) : Device :=
  { d with
    host := { d.host with memory := d.host.memory.modifyWord id i fun _ => w }
    tally := d.tally.add .toDevice
    traffic := { d.traffic with toDevice := d.traffic.toDevice + 4 } }

/-- What the device behind the gateway does. -/
theorem onHost_ok {α : Type} {act : Exec HostDevice α} {d : Device} {j : Journal} {a : α}
    {u : Traced HostDevice} (h : act ⟨d.host, j⟩ = .ok a u) :
    onHost act ⟨d, j⟩ = .ok a ⟨{ d with host := u.state }, u.journal⟩ :=
  Exec.focus_ok (t := ⟨d, j⟩) h

end Device

namespace Buffer

variable {b : Buffer} {d : Device} {i : Nat} {w : UInt32}

theorem checkRange_one (hi : i < b.length) (t : Traced Device) :
    (Exec.check (b.checkRange i 1) : Exec Device Unit) t = .ok () t := by
  rw [checkRange, if_neg (Nat.not_lt.mpr hi)]
  rfl

/-- A word is read, unless that is refused. -/
theorem get_eq (hi : i < b.length) (hw : d.host.memory.word? b.id i = some w) (j : Journal) :
    b.get i ⟨d, j⟩ = match d.refusal? .fromDevice with
      | some e => .error (.error e) ⟨d.asked .fromDevice, j⟩
      | none => .ok w ⟨d.looked, j⟩ := by
  split
  · rename_i e hrefusal
    exact Exec.bind_error ((Exec.bind_ok (checkRange_one hi _)).trans
      (Exec.bind_error (Device.ask_refused hrefusal)))
  · rename_i hserved
    -- The range was checked by the buffer and the memory holds the word, so the device has
    -- nothing to refuse.
    have hread : HostDevice.read b.id (i * 4) 1 ⟨d.host, j⟩ = .ok #[w] ⟨d.host, j⟩ := by
      have hcheck : (Exec.check (d.host.memory.read b.id (i * 4) 1) : Exec HostDevice Words)
          ⟨d.host, j⟩ = .ok #[w] ⟨d.host, j⟩ := by
        rw [Memory.read_word hw]
        rfl
      exact hcheck
    have hask : Device.ask .fromDevice ⟨d, j⟩ = .ok () ⟨d.asked .fromDevice, j⟩ :=
      Device.ask_served hserved
    have hdata : b.read i 1 ⟨d, j⟩ = .ok #[w] ⟨d.looked, j⟩ :=
      (Exec.bind_ok (checkRange_one hi _)).trans ((Exec.bind_ok hask).trans
        (Exec.bind_ok (Device.onHost_ok (d := d.asked .fromDevice) hread)))
    exact Exec.bind_ok hdata

/-- A word is written, unless that is refused. -/
theorem set_eq (hi : i < b.length) (hw : d.host.memory.word? b.id i = some w) (x : UInt32)
    (j : Journal) :
    b.set i x ⟨d, j⟩ = match d.refusal? .toDevice with
      | some e => .error (.error e) ⟨d.asked .toDevice, j⟩
      | none => .ok () ⟨d.put b.id i x, j⟩ := by
  split
  · rename_i e hrefusal
    exact (Exec.bind_ok (checkRange_one hi _)).trans
      (Exec.bind_error (Device.ask_refused hrefusal))
  · rename_i hserved
    -- As for reading: only the gateway can still refuse.
    have hwrite : HostDevice.write b.id (i * 4) #[x] ⟨d.host, j⟩
        = .ok () ⟨{ d.host with memory := d.host.memory.modifyWord b.id i fun _ => x }, j⟩ := by
      have hcheck : (Exec.check (d.host.memory.write b.id (i * 4) #[x]) : Exec HostDevice Memory)
          ⟨d.host, j⟩ = .ok (d.host.memory.modifyWord b.id i fun _ => x) ⟨d.host, j⟩ := by
        rw [Memory.write_word hw]
        rfl
      exact Exec.bind_ok hcheck
    have hask : Device.ask .toDevice ⟨d, j⟩ = .ok () ⟨d.asked .toDevice, j⟩ :=
      Device.ask_served hserved
    exact (Exec.bind_ok (checkRange_one hi _)).trans ((Exec.bind_ok hask).trans
      (Exec.bind_ok (Device.onHost_ok (d := d.asked .toDevice) hwrite)))

end Buffer

/-! ### Calls -/

/-- The order in which two bits are set or cleared makes no difference. -/
theorem withBit_comm (mask : UInt32) {bit other : UInt32} (h : bit &&& ~~~other = bit)
    (h' : other &&& ~~~bit = other) (on on' : Bool) :
    withBit (withBit mask bit on) other on' = withBit (withBit mask other on') bit on := by
  unfold withBit
  cases on <;> cases on' <;> simp only [if_true, if_false, Bool.false_eq_true]
  · rw [UInt32.and_assoc, UInt32.and_comm (~~~bit), ← UInt32.and_assoc]
  · rw [or_and_distrib, h']
  · rw [or_and_distrib, h]
  · rw [UInt32.or_assoc, UInt32.or_comm bit, ← UInt32.or_assoc]

/-- What becomes of the words of one variable, in this order. -/
abbrev WordChanges := List (Bounds.Resident.Part × (UInt32 → UInt32))

/-- The words that a call changes. -/
def BoundEdit.changes : BoundEdit Binary32 → WordChanges
  | .lower x => [(.lower, fun _ => Bounds.Resident.sideWord x),
      (.bounded, (withBit · hasLower x.isSome))]
  | .upper x => [(.upper, fun _ => Bounds.Resident.sideWord x),
      (.bounded, (withBit · hasUpper x.isSome))]
  | .both i => [(.lower, fun _ => Bounds.Resident.sideWord i.lower),
      (.upper, fun _ => Bounds.Resident.sideWord i.upper), (.bounded, fun _ => boundMask i)]

/-- A call to a store is the call to its buffers. -/
theorem BoundEdit.inStore_resident (e : BoundEdit Binary32) (v : Nat) :
    (e.inStore v : Exec (Attached Bounds.Resident) Unit)
      = Attached.onDevice fun r => e.onDevice r v := by
  cases e <;> rfl

/-- How many words a call reads. -/
def BoundEdit.reads : BoundEdit Binary32 → Nat
  | .both _ => 0
  | _ => 1

namespace Bounds.Resident

/-- A memory after changes of the words of a variable. -/
def change (r : Resident) (v : Nat) (l : WordChanges) (m : Memory) : Memory :=
  l.foldl (fun m c => m.modifyWord (r.part c.1).id v c.2) m

/-- The buffers of a store are different ones of a memory, each with a word for each
    variable. It is true of every store from the moment it is made, and no transfer changes
    it. -/
structure InMemory (r : Resident) (m : Memory) : Prop where
  length : ∀ s, (r.part s).length = r.numVars
  word : ∀ s, ∀ v < r.numVars, ∃ w, m.word? (r.part s).id v = some w
  inj : ∀ s t, (r.part s).id = (r.part t).id → s = t

variable {r : Resident} {m : Memory} {d : Device} {v : Nat}

theorem InMemory.lt_length (h : r.InMemory m) (hv : v < r.numVars) (s : Part) :
    v < (r.part s).length := by
  rw [h.length]
  exact hv

/-- The buffers stay where they are. -/
theorem InMemory.modifyWord (h : r.InMemory m) (id i : Nat) (f : UInt32 → UInt32) :
    r.InMemory (m.modifyWord id i f) where
  length := h.length
  word s v hv := by
    rcases h.word s v hv with ⟨w, hw⟩
    rw [Memory.word?_modifyWord, hw]
    by_cases hid : id = (r.part s).id ∧ i = v
    · exact ⟨f w, by rw [if_pos hid, Option.map_some]⟩
    · exact ⟨w, by rw [if_neg hid]⟩
  inj := h.inj

theorem InMemory.change (h : r.InMemory m) (v : Nat) (l : WordChanges) :
    r.InMemory (r.change v l m) := by
  induction l generalizing m with
  | nil => exact h
  | cons c l ih => exact ih (h.modifyWord _ _ _)

/-- A word of the store after one change. -/
theorem InMemory.word?_modifyWord (h : r.InMemory m) (s t : Part) (v u : Nat)
    (f : UInt32 → UInt32) : (m.modifyWord (r.part s).id v f).word? (r.part t).id u
      = if s = t ∧ v = u then (m.word? (r.part t).id u).map f else m.word? (r.part t).id u := by
  rw [Memory.word?_modifyWord]
  by_cases hst : s = t
  · rw [hst]
    simp only [true_and]
  · rw [if_neg fun hid => hst (h.inj s t hid.1), if_neg fun hid => hst hid.1]

/-- The words of a buffer that is not among those that change. -/
theorem InMemory.word?_change_of_ne (h : r.InMemory m) {s : Part} {l : WordChanges}
    (hne : ∀ c ∈ l, c.1 ≠ s) (u : Nat) :
    (r.change v l m).word? (r.part s).id u = m.word? (r.part s).id u := by
  induction l generalizing m with
  | nil => rfl
  | cons c l ih =>
      have hrest := ih (h.modifyWord (r.part c.1).id v c.2)
        fun c' hc' => hne c' (List.mem_cons_of_mem c hc')
      refine hrest.trans ((h.word?_modifyWord c.1 s v u c.2).trans (if_neg ?_))
      exact fun heq => hne c List.mem_cons_self heq.1

end Bounds.Resident

/-- A device after what a call reads, and the first `n` of its changes. The counts of
    requests and bytes are part of the device, so they have to be told as well. -/
def Device.partly (r : Bounds.Resident) (v : Nat) (e : BoundEdit Binary32) (n : Nat) (d : Device) :
    Device :=
  { d with
    host := { d.host with memory := r.change v (e.changes.take n) d.host.memory }
    tally := { d.tally with
      toDevice := d.tally.toDevice + n
      fromDevice := d.tally.fromDevice + e.reads
      latest := match n, e.reads with
        | 0, 0 => d.tally.latest
        | 0, _ => some .fromDevice
        | _, _ => some .toDevice }
    traffic := { d.traffic with
      toDevice := d.traffic.toDevice + 4 * n
      fromDevice := d.traffic.fromDevice + 4 * e.reads } }

/-- A device after a call, with all its changes. -/
def Device.edited (r : Bounds.Resident) (v : Nat) (e : BoundEdit Binary32) (d : Device) : Device :=
  d.partly r v e e.changes.length

namespace BoundEdit

/-- How a call ends on a device: there is no such variable; or it is carried out; or the
    device refuses one of its transfers, when the first changes are made. The mask is
    written last, so a call that was refused has not changed which bounds there are. -/
inductive Comes (e : BoundEdit Binary32) (r : Bounds.Resident) (v : Nat) (d : Device)
    (j : Journal) : EStateM.Result Stop (Traced Device) Unit → Prop where
  | outside : r.numVars ≤ v →
      Comes e r v d j (.error (.error (.indexOutOfBounds v r.numVars)) ⟨d, j⟩)
  | done : v < r.numVars → Comes e r v d j (.ok () ⟨d.edited r v e, j⟩)
  | refused {req : Request} {k n : Nat} {error : Error} {d' : Device} : v < r.numVars →
      d.refuse = some ⟨req, k, error⟩ → n < e.changes.length →
      (req = .fromDevice ∧ n = 0 ∨ req = .toDevice ∧ k = d.tally.toDevice + n) →
      d'.host = { d.host with memory := r.change v (e.changes.take n) d.host.memory } →
      d'.refuse = d.refuse → d'.tally.count req = k + 1 →
      Comes e r v d j (.error (.error error) ⟨d', j⟩)

variable {e : BoundEdit Binary32} {r : Bounds.Resident} {v : Nat} {d : Device}

open Bounds.Resident

theorem check_of_lt (hv : v < r.numVars) (t : Traced Device) : r.check v t = .ok () t := by
  rw [Bounds.Resident.check, Error.checkIndex, if_pos hv]
  rfl

theorem check_of_le (hv : r.numVars ≤ v) (t : Traced Device) :
    r.check v t = .error (.error (.indexOutOfBounds v r.numVars)) t := by
  rw [Bounds.Resident.check, Error.checkIndex, if_neg (Nat.not_lt_of_le hv)]
  rfl

/-- The next change is made or refused. -/
theorem comes_set (h : r.InMemory d.host.memory) (hv : v < r.numVars) {n : Nat} {s : Part}
    {f : UInt32 → UInt32} {w : UInt32} (hn : e.changes[n]? = some (s, f))
    (hw : (d.partly r v e n).host.memory.word? (r.part s).id v = some w) (j : Journal)
    (rest : Exec Device Unit) (hrest : e.Comes r v d j (rest ⟨d.partly r v e (n + 1), j⟩)) :
    e.Comes r v d j (((r.part s).set v (f w) >>= fun _ => rest) ⟨d.partly r v e n, j⟩) := by
  have hset := Buffer.set_eq (h.lt_length hv s) hw (f w) j
  split at hset
  · rename_i error hrefusal
    have hrefuse : d.refuse = some ⟨.toDevice, d.tally.toDevice + n, error⟩ :=
      Device.refusal?_eq_some_iff.mp hrefusal
    rw [Exec.bind_error hset]
    refine .refused (n := n) hv hrefuse (List.getElem?_eq_some_iff.mp hn).1
      (.inr ⟨rfl, rfl⟩) rfl rfl ?_
    exact (Tally.count_add _ .toDevice .toDevice).trans (if_pos rfl)
  -- The words after this write are those after one change more of the list.
  · have hput : (d.partly r v e n).put (r.part s).id v (f w) = d.partly r v e (n + 1) := by
      have hmemory : (d.partly r v e n).host.memory.modifyWord (r.part s).id v (fun _ => f w)
          = r.change v (e.changes.take (n + 1)) d.host.memory := by
        rw [List.take_add_one, hn, change, List.foldl_append]
        exact Memory.modifyWord_congr hw rfl
      unfold Device.put
      rw [hmemory]
      rfl
    rw [Exec.bind_ok hset, hput]
    exact hrest

/-- The last change is made or refused. -/
theorem comes_set_last (h : r.InMemory d.host.memory) (hv : v < r.numVars) {n : Nat} {s : Part}
    {f : UInt32 → UInt32} {w : UInt32} (hn : e.changes[n]? = some (s, f))
    (hlast : e.changes.length = n + 1)
    (hw : (d.partly r v e n).host.memory.word? (r.part s).id v = some w) (j : Journal) :
    e.Comes r v d j ((r.part s).set v (f w) ⟨d.partly r v e n, j⟩) := by
  have hset := comes_set h hv hn hw j (pure ()) (by
    rw [← hlast]
    exact .done hv)
  rwa [bind_pure_unit] at hset

/-- One bound: the mask is read, and the value and the mask are written. -/
theorem writeSide_comes (h : r.InMemory d.host.memory) {s : Part} (hs : s ≠ .bounded)
    {bit : UInt32} {x : Option Binary32}
    (hchanges : e.changes = [(s, fun _ => sideWord x), (.bounded, (withBit · bit x.isSome))])
    (hreads : e.reads = 1) (j : Journal) :
    e.Comes r v d j (r.writeSide v bit (r.part s) x ⟨d, j⟩) := by
  unfold writeSide
  rcases Nat.lt_or_ge v r.numVars with hv | hv
  · rw [Exec.bind_ok (check_of_lt hv _)]
    rcases h.word .bounded v hv with ⟨mask, hmask⟩
    rcases h.word s v hv with ⟨old, hold⟩
    have hget := Buffer.get_eq (h.lt_length hv .bounded) hmask j
    split at hget
    · rename_i error hrefusal
      rw [show r.bounded = r.part .bounded from rfl, Exec.bind_error hget]
      refine .refused (n := 0) hv (Device.refusal?_eq_some_iff.mp hrefusal)
        (by rw [hchanges]; exact Nat.zero_lt_two) (.inl ⟨rfl, rfl⟩) rfl rfl ?_
      exact (d.tally.count_add .fromDevice .fromDevice).trans (if_pos rfl)
    · have hlooked : d.looked = d.partly r v e 0 := by
        unfold Device.partly
        rw [hreads]
        rfl
      rw [hlooked] at hget
      rw [show r.bounded = r.part .bounded from rfl, Exec.bind_ok hget]
      have hvalue : e.changes[0]? = some (s, fun _ => sideWord x) := by
        rw [hchanges]
        rfl
      have hbit : e.changes[1]? = some (.bounded, (withBit · bit x.isSome)) := by
        rw [hchanges]
        rfl
      -- The mask is still there after the value was written.
      have hmask' : (d.partly r v e 1).host.memory.word? (r.part .bounded).id v = some mask := by
        refine (h.word?_change_of_ne (fun c hc => ?_) v).trans hmask
        rw [hchanges] at hc
        rw [List.mem_singleton.mp hc]
        exact hs
      refine comes_set h hv hvalue hold j _ ?_
      exact comes_set_last h hv hbit (by rw [hchanges]; rfl) hmask' j
  · rw [Exec.bind_error (check_of_le hv _)]
    exact .outside hv

/-- Both bounds: two values and the mask are written. -/
theorem writeBoth_comes (h : r.InMemory d.host.memory) (i : Interval Binary32) (j : Journal) :
    (BoundEdit.both i).Comes r v d j (r.writeBoth v i ⟨d, j⟩) := by
  unfold writeBoth
  rcases Nat.lt_or_ge v r.numVars with hv | hv
  · rw [Exec.bind_ok (check_of_lt hv _)]
    rcases h.word .lower v hv with ⟨lower, hlower⟩
    rcases h.word .upper v hv with ⟨upper, hupper⟩
    rcases h.word .bounded v hv with ⟨mask, hmask⟩
    -- The word that is written next is still the one from before the call: the changes up to here
    -- are in other buffers.
    have hupper' : (d.partly r v (.both i) 1).host.memory.word? (r.part .upper).id v
        = some upper := by
      refine (h.word?_change_of_ne (fun c hc => ?_) v).trans hupper
      rw [List.mem_singleton.mp hc]
      nofun
    have hmask' : (d.partly r v (.both i) 2).host.memory.word? (r.part .bounded).id v
        = some mask := by
      refine (h.word?_change_of_ne (fun c hc => ?_) v).trans hmask
      rcases List.mem_cons.mp hc with rfl | hc
      · nofun
      · rw [List.mem_singleton.mp hc]
        nofun
    have hlower_set := comes_set (d := d) (e := .both i) (n := 0) (s := .lower)
      (f := fun _ => sideWord i.lower) h hv rfl hlower j
      (do r.upper.set v (sideWord i.upper); r.bounded.set v (boundMask i))
    refine hlower_set ?_
    refine comes_set (n := 1) (s := .upper) (f := fun _ => sideWord i.upper) h hv rfl hupper' j _ ?_
    exact comes_set_last (n := 2) (s := .bounded) (f := fun _ => boundMask i) h hv rfl rfl hmask' j
  · rw [Exec.bind_error (check_of_le hv _)]
    exact .outside hv

/-- Every call ends in one of these ways, whatever the device may refuse and when. -/
theorem onDevice_comes (h : r.InMemory d.host.memory) (e : BoundEdit Binary32) (v : Nat)
    (j : Journal) : e.Comes r v d j (e.onDevice r v ⟨d, j⟩) := by
  cases e with
  | lower x => exact writeSide_comes h (s := .lower) nofun rfl rfl j
  | upper x => exact writeSide_comes h (s := .upper) nofun rfl rfl j
  | both i => exact writeBoth_comes h i j

end BoundEdit

end BoundedSimplex
