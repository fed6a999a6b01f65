import BoundedSimplex.Proofs.Outcome
import BoundedSimplex.Proofs.Sweep
import BoundedSimplex.Device.Buffer

/-!
# Requests to a Device

What each request does to the device behind a gateway that refuses nothing.

The gateway counts and records. Nothing of that is read by a search, so a
request is described by the device behind it alone: `Device.Serves` says which
device that is, and every request is stated as a change of it. A transfer
reads or replaces words of one buffer, binding an argument replaces one
argument of one kernel, and a launch runs the kernel on the memory with the
arguments that are bound to it.

How the arguments reach the kernel is the one part with a loop in it. They are
sorted into scalars and buffers from the first one on. If every one is bound
and of the right kind, the kernel finds each in its place.

## Main definitions

* `Device.Serves`: The device behind a gateway that refuses nothing.
* `CompiledKernel.Bound`: All arguments of a kernel are bound.

## Theorems

* `CompiledKernel.Bound.invocation_eq`: The arguments reach the kernel.
* `HostDevice.write_gives`, `HostDevice.allocate_gives`,
  `HostDevice.compile_gives`: What the device behind the gateway does.
* `Device.Serves.read_gives`, `Device.Serves.write_gives`: The transfers.
* `Device.Serves.setArg_gives`, `Device.Serves.launch_gives`: Binding and
  launching.
* `Device.Serves.allocate_gives`, `Device.Serves.compile_gives`: New buffers
  and kernels.
-/

namespace BoundedSimplex

/-! ### Arguments -/

namespace CompiledKernel

/-- All arguments of a kernel are bound, to these scalars and buffers. -/
structure Bound (k : CompiledKernel) (scalars : List UInt32) (buffers : List Nat) : Prop where
  size : k.args.size = k.entry.arity
  scalars : (List.range k.entry.scalarCount).map (fun i => (k.args[i]?).join.bind (·.scalarBits?))
    = scalars.map some
  buffers : (List.range k.entry.bufferCount).map
      (fun i => (k.args[k.entry.scalarCount + i]?).join.bind (·.buffer?)) = buffers.map some

/-- A list that is told item by item. -/
theorem getElem?_of_map_range {X : Type} {f : Nat → Option X} {n : Nat} {xs : List X}
    (h : (List.range n).map f = xs.map some) {i : Nat} (hi : i < n) : f i = xs[i]? := by
  have hget := congrArg (·[i]?) h
  simp only [List.getElem?_map, List.getElem?_range hi, Option.map_some] at hget
  cases hx : xs[i]? with
  | none =>
      rw [hx] at hget
      cases hget
  | some x =>
      rw [hx] at hget
      exact Option.some.inj hget

theorem map_range_getD {X : Type} {f : Nat → Option X} {n : Nat} {xs : List X}
    (h : (List.range n).map f = xs.map some) (z : X) :
    (Array.range n).map (fun i => (f i).getD z) = xs.toArray := by
  have hlen := congrArg List.length h
  rw [List.length_map, List.length_map, List.length_range] at hlen
  refine Array.ext_getElem? fun i => ?_
  rw [Array.getElem?_map, Array.getElem?_range, List.getElem?_toArray]
  by_cases hi : i < n
  · rw [if_pos hi, Option.map_some, getElem?_of_map_range h hi,
      List.getElem?_eq_getElem (by omega), Option.getD_some]
  · rw [if_neg hi, Option.map_none, List.getElem?_eq_none (by omega)]

/-- Then they reach the kernel. -/
theorem Bound.gather_eq {k : CompiledKernel} {scalars : List UInt32} {buffers : List Nat}
    (h : k.Bound scalars buffers) : k.gather = .ok (scalars.toArray, buffers.toArray) := by
  -- A list that was bound has a value at each place up to its length.
  have hsome : ∀ {X : Type} {f : Nat → Option X} {n : Nat} {xs : List X},
      (List.range n).map f = xs.map some → ∀ i < n, ∃ x, f i = some x := by
    intro X f n xs hmap i hi
    have hlen := congrArg List.length hmap
    rw [List.length_map, List.length_map, List.length_range] at hlen
    exact ⟨xs[i], by rw [getElem?_of_map_range hmap hi, List.getElem?_eq_getElem]⟩
  -- Scalars come first and buffers after them, so the walk over the arguments is two walks.
  rw [← map_range_getD h.scalars 0, ← map_range_getD h.buffers 0, gather, h.size, Entry.arity,
    List.range_add, List.foldlM_append]
  refine Eq.trans (congrArg (· >>= _) (foldlM_push (m := Except Error) (fun s => (s, #[]))
    (fun i => ((k.args[i]?).join.bind (·.scalarBits?)).getD 0) k.entry.scalarCount
    fun i hi s => ?_)) ?_
  · rcases hsome h.scalars i hi with ⟨bits, hbits⟩
    rcases Option.bind_eq_some_iff.mp hbits with ⟨arg, harg, hbits'⟩
    simp only [harg, hbits', Option.bind_some, Option.getD_some, if_pos hi, pure, Except.pure]
  rw [pure_bind, List.foldlM_map]
  refine foldlM_push (m := Except Error) (fun b => (_, b))
    (fun i => ((k.args[k.entry.scalarCount + i]?).join.bind (·.buffer?)).getD 0)
    k.entry.bufferCount fun i hi b => ?_
  rcases hsome h.buffers i hi with ⟨id, hid⟩
  rcases Option.bind_eq_some_iff.mp hid with ⟨arg, harg, hid'⟩
  simp only [harg, hid', Option.bind_some, Option.getD_some,
    if_neg (Nat.not_lt.mpr (Nat.le_add_right k.entry.scalarCount i)), pure, Except.pure]

/-- A launch of such a kernel, if the size is one the device accepts. Nothing is left to
    check but the buffers. -/
theorem Bound.invocation_eq {k : CompiledKernel} {scalars : List UInt32} {buffers : List Nat}
    (h : k.Bound scalars buffers) {size : LaunchSize} {limit : Nat}
    (hsize : size.validate k.entry.name limit = .ok ()) :
    k.invocation size limit = .ok ⟨k.entry, scalars.toArray, buffers.toArray, size⟩ := by
  rw [invocation, hsize, h.gather_eq]
  rfl

end CompiledKernel

/-! ### Transfers of the memory -/

namespace Memory

variable {m : Memory} {id : Nat} {ws : Words}

theorem words_eq (h : m.words? id = some ws) : m.words id = .ok ws := by
  rw [words, h]

/-- Whole words within a buffer can be moved. -/
theorem transfer_eq (h : m.words? id = some ws) {start count : Nat}
    (hend : start + count ≤ ws.size) : m.transfer id (start * 4) (4 * count) = .ok ws := by
  rw [transfer, words_eq h]
  simp only [Bind.bind, Except.bind]
  rw [if_neg (by omega)]

theorem read_eq (h : m.words? id = some ws) {start count : Nat} (hend : start + count ≤ ws.size) :
    m.read id (start * 4) count = .ok (ws.extract start (start + count)) := by
  rw [read, transfer_eq h hend]
  simp only [Bind.bind, Except.bind, pure, Except.pure, Nat.mul_div_cancel _ (by decide : 0 < 4)]

theorem write_eq (h : m.words? id = some ws) {start : Nat} {data : Words}
    (hend : start + data.size ≤ ws.size) :
    m.write id (start * 4) data = .ok (m.store id (ws.overlay start data)) := by
  rw [write, transfer_eq h hend]
  simp only [Bind.bind, Except.bind, pure, Except.pure, Nat.mul_div_cancel _ (by decide : 0 < 4)]

end Memory

namespace Words

theorem size_overlay {ws data : Words} {start : Nat} (hend : start + data.size ≤ ws.size) :
    (ws.overlay start data).size = ws.size := by
  simp only [overlay, Array.size_append, Array.size_extract]
  omega

/-- The words that were replaced, and the others as before. -/
theorem getElem?_overlay {ws data : Words} {start : Nat} (hend : start + data.size ≤ ws.size)
    (i : Nat) : (ws.overlay start data)[i]?
      = if start ≤ i ∧ i < start + data.size then data[i - start]? else ws[i]? := by
  have hfront : (ws.extract 0 start).size = start := by
    rw [Array.size_extract]
    omega
  simp only [overlay, Array.getElem?_append, Array.size_append, hfront, Array.getElem?_extract]
  -- Three stretches: before the data, the data, and after it.
  by_cases hlow : i < start
  · rw [if_pos (by omega), if_pos hlow, if_pos (by omega), if_neg (by omega), Nat.zero_add]
  · by_cases hin : i < start + data.size
    · rw [if_pos hin, if_neg hlow, if_pos ⟨by omega, hin⟩]
    · rw [if_neg hin, if_neg (by omega : ¬ (start ≤ i ∧ i < start + data.size))]
      have hidx : start + data.size + (i - (start + data.size)) = i := by omega
      by_cases hlt : i < ws.size
      · rw [if_pos (by omega), hidx]
      · rw [if_neg (by omega), Array.getElem?_eq_none (by omega)]

/-- A single word that is replaced. -/
theorem overlay_singleton {ws : Words} {i : Nat} (hi : i < ws.size) (x : UInt32) :
    ws.overlay i #[x] = ws.setIfInBounds i x := by
  refine Array.ext_getElem? fun j => ?_
  rw [getElem?_overlay hi, Array.getElem?_setIfInBounds]
  by_cases hij : i = j
  · rw [if_pos hij, if_pos hi, hij, if_pos ⟨Nat.le_refl j, Nat.lt_succ_self j⟩, Nat.sub_self]
    rfl
  · have hout : ¬ (i ≤ j ∧ j < i + #[x].size) := by
      show ¬ (i ≤ j ∧ j < i + 1)
      omega
    rw [if_neg hij, if_neg hout]

end Words

/-! ### Requests -/

/-- A kernel with one argument replaced. -/
def CompiledKernel.withArg (k : CompiledKernel) (i : Nat) (arg : Arg) : CompiledKernel :=
  { k with args := k.args.setIfInBounds i (some arg) }

/-- A device with one kernel replaced. -/
def HostDevice.withKernel (h : HostDevice) (id : Nat) (k : CompiledKernel) : HostDevice :=
  { h with kernels := h.kernels.setIfInBounds id (some k) }

namespace HostDevice

variable {h : HostDevice} {id : Nat} {ws : Words}

/-- Words are replaced. -/
theorem write_gives (hws : h.memory.words? id = some ws) {start : Nat} {data : Words}
    (hend : start + data.size ≤ ws.size) :
    (write id (start * 4) data).Gives h fun _ h' =>
      h' = { h with memory := h.memory.store id (ws.overlay start data) } := by
  refine Exec.Yields.state.gives ?_
  refine (Exec.Yields.check (Memory.write_eq hws hend)).gives ?_
  exact Exec.Gives.update rfl

/-- A new buffer of zeros. -/
theorem allocate_gives (h : HostDevice) (bytes : Nat) :
    (allocate bytes).Gives h fun id h' => id = h.memory.nextId ∧
      h' = { h with memory := h.memory.allocate ((bytes + 3) / 4) } := by
  refine Exec.Yields.state.gives ?_
  refine Exec.Yields.update.gives ?_
  exact Exec.Yields.emit.gives (Exec.Gives.pure ⟨rfl, rfl⟩)

/-- A new kernel without arguments. -/
theorem compile_gives (h : HostDevice) {source : KernelSource} (hsource : source.family = .host)
    (e : Entry) :
    (compile source e.name).Gives h fun id h' => id = h.kernels.size ∧
      h' = { h with kernels := h.kernels.push (some (.fresh e)) } := by
  have hname : Entry.ofName? e.name = some e := by cases e <;> decide
  unfold compile
  rw [if_neg (fun hne => hne hsource), hname]
  refine Exec.Yields.state.gives ?_
  refine Exec.Yields.update.gives ?_
  exact Exec.Gives.pure ⟨rfl, rfl⟩

end HostDevice

namespace Device

/-- The request to refuse is counted, and goes no further. -/
theorem ask_refused {t : Traced Device} {r : Request} {e : Error}
    (h : t.state.refusal? r = some e) :
    ask r t = .error (.error e) ⟨{ t.state with tally := t.state.tally.add r }, t.journal⟩ := by
  simp only [ask, Bind.bind, EStateM.bind, Exec.state, Exec.update, h]
  rfl

/-- Any other request is counted and passed on. -/
theorem ask_served {t : Traced Device} {r : Request} (h : t.state.refusal? r = none) :
    ask r t = .ok () ⟨{ t.state with tally := t.state.tally.add r }, t.journal⟩ := by
  simp only [ask, Bind.bind, EStateM.bind, Exec.state, Exec.update, h]
  rfl

/-- A gateway that refuses nothing, with the device behind it. -/
structure Serves (d : Device) (h : HostDevice) : Prop where
  refuse : d.refuse = none
  host : d.host = h

theorem serves_toHost (h : HostDevice) : (toHost h).Serves h := ⟨rfl, rfl⟩

namespace Serves

variable {d : Device} {h : HostDevice}

/-- A request is counted and passed on. -/
theorem ask_gives (hd : d.Serves h) (r : Request) :
    (ask r).Gives d fun _ d' => d'.Serves h :=
  fun j => ⟨(), _, j, ask_served (refusal?_of_none hd.refuse r), hd.refuse, hd.host⟩

theorem onHost_gives {α : Type} {act : Exec HostDevice α} {P : α → HostDevice → Prop}
    (hd : d.Serves h) (hact : act.Gives h P) :
    (onHost act).Gives d fun a d' => ∃ h', P a h' ∧ d'.Serves h' := by
  refine Exec.Gives.focus ?_
  rw [hd.host]
  exact hact.mono fun a h' hP => ⟨h', hP, hd.refuse, rfl⟩

/-- A request that is passed on and then recorded. -/
theorem request_gives {α : Type} {act : Exec HostDevice α} {P : α → HostDevice → Prop}
    (hd : d.Serves h) (r : Request) (hact : act.Gives h P) :
    (ask r >>= fun _ => onHost act).Gives d fun a d' => ∃ h', P a h' ∧ d'.Serves h' :=
  (hd.ask_gives r).bind fun _ _ hd₁ => hd₁.onHost_gives hact

variable {id : Nat} {ws : Words}

/-- Words are read as they are. -/
theorem read_gives (hd : d.Serves h) (hws : h.memory.words? id = some ws) {start count : Nat}
    (hend : start + count ≤ ws.size) :
    (read id (start * 4) count).Gives d
      fun r d' => r = ws.extract start (start + count) ∧ d'.Serves h := by
  refine (hd.ask_gives .fromDevice).bind fun _ d₁ hd₁ => ?_
  refine (hd₁.onHost_gives (P := fun r h' => r = ws.extract start (start + count) ∧ h' = h) ?_).bind
    ?_
  · refine Exec.Yields.state.gives ?_
    exact Exec.Gives.check (Memory.read_eq hws hend) ⟨rfl, rfl⟩
  · rintro r d₂ ⟨h, ⟨rfl, rfl⟩, hd₂⟩
    exact Exec.Yields.update.gives (Exec.Gives.pure ⟨rfl, hd₂.refuse, hd₂.host⟩)

/-- Words are replaced. -/
theorem write_gives (hd : d.Serves h) (hws : h.memory.words? id = some ws) {start : Nat}
    {data : Words} (hend : start + data.size ≤ ws.size) :
    (write id (start * 4) data).Gives d fun _ d' =>
      d'.Serves { h with memory := h.memory.store id (ws.overlay start data) } := by
  refine (hd.ask_gives .toDevice).bind fun _ d₁ hd₁ => ?_
  refine (hd₁.onHost_gives (HostDevice.write_gives hws hend)).bind ?_
  rintro _ d₂ ⟨_, rfl, hd₂⟩
  exact Exec.Gives.update ⟨hd₂.refuse, hd₂.host⟩

/-- An argument of a kernel is replaced. -/
theorem setArg_gives (hd : d.Serves h) {k : CompiledKernel} (hk : (h.kernels[id]?).join = some k)
    {i : Nat} (hi : i < k.args.size) (arg : Arg) :
    (setArg id i arg).Gives d fun _ d' => d'.Serves (h.withKernel id (k.withArg i arg)) := by
  refine (hd.request_gives .setArg (P := fun _ h' => h' = h.withKernel id (k.withArg i arg))
    ?_).mono ?_
  · refine Exec.Yields.state.gives ?_
    refine (Exec.Yields.check (a := k) (by rw [HostDevice.kernel, hk])).gives ?_
    refine (Exec.Yields.check (if_pos hi)).gives ?_
    exact Exec.Gives.update rfl
  · rintro _ d' ⟨_, rfl, hd'⟩
    exact hd'

/-- A kernel that is bound to all its arguments runs on the memory. -/
theorem launch_gives (hd : d.Serves h) {k : CompiledKernel} (hk : (h.kernels[id]?).join = some k)
    {scalars : List UInt32} {buffers : List Nat} (hbound : k.Bound scalars buffers)
    {size : LaunchSize}
    (hsize : size.validate k.entry.name h.limits.maxWorkgroupSize = .ok ()) {m : Memory}
    (hrun : Invocation.run ⟨k.entry, scalars.toArray, buffers.toArray, size⟩ h.memory
      = (.ok (), m)) :
    (launch id size).Gives d fun _ d' => d'.Serves { h with memory := m } := by
  refine (hd.ask_gives .launch).bind fun _ d₁ hd₁ => ?_
  -- The launch is noted before it is made.
  refine (Exec.Gives.update (P := fun _ d' => d'.Serves h) ⟨hd₁.refuse, hd₁.host⟩).bind
    fun _ d₂ hd₂ => ?_
  refine (hd₂.onHost_gives (P := fun _ h' => h' = { h with memory := m }) ?_).mono ?_
  · refine Exec.Yields.state.gives ?_
    refine (Exec.Yields.check (a := k) (by rw [HostDevice.kernel, hk])).gives ?_
    refine (Exec.Yields.check (hbound.invocation_eq hsize)).gives ?_
    refine Exec.Yields.emit.gives ?_
    rw [hrun]
    refine Exec.Yields.update.gives ?_
    exact Exec.Gives.ofExcept rfl rfl
  · rintro _ d' ⟨_, rfl, hd'⟩
    exact hd'

/-- A new buffer of zeros. -/
theorem allocate_gives (hd : d.Serves h) (bytes : Nat) :
    (allocate bytes).Gives d fun id d' => id = h.memory.nextId ∧
      d'.Serves { h with memory := h.memory.allocate ((bytes + 3) / 4) } := by
  refine (hd.ask_gives .allocate).bind fun _ d₁ hd₁ => ?_
  refine (hd₁.onHost_gives (h.allocate_gives bytes)).bind ?_
  rintro id d₂ ⟨_, ⟨rfl, rfl⟩, hd₂⟩
  exact Exec.Yields.update.gives (Exec.Gives.pure ⟨rfl, hd₂.refuse, hd₂.host⟩)

/-- A new kernel without arguments. -/
theorem compile_gives (hd : d.Serves h) {source : KernelSource} (hsource : source.family = .host)
    (e : Entry) :
    (compile source e.name).Gives d fun id d' => id = h.kernels.size ∧
      d'.Serves { h with kernels := h.kernels.push (some (.fresh e)) } := by
  refine (hd.request_gives .compile (h.compile_gives hsource e)).mono ?_
  rintro id d' ⟨_, ⟨rfl, rfl⟩, hd'⟩
  exact ⟨rfl, hd'⟩

end Serves

end Device

end BoundedSimplex
