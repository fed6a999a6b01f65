import BoundedSimplex.Proofs.Arguments
import BoundedSimplex.Proofs.Endings
import BoundedSimplex.Proofs.Leftovers
import BoundedSimplex.Proofs.Steps

/-!
# The Footprint of an Engine

What an engine on a shared device touches, and what it leaves alone.

A device may serve several engines and other users. To an engine belong twelve
buffers and nine kernels, and its kernels are bound to its own buffers only. So
whatever it asks of the device stays among these: transfers name its buffers, a
binding names one of its kernels and one of its buffers, and a launch writes one
buffer that its kernel is bound to. `HostDevice.Spares` says that everything else
is as it was.

A launch takes its output out of the memory while the kernel runs. A kernel that
refuses its arguments puts it back, and so does one that is done. Only an index
outside a table stops a kernel without that, and then the buffer is lost. The
conditions here keep this one case apart.

The proof is about single requests, and then about all operations, since they
only make requests.

## Main definitions

* `HostDevice.Holds`, `HostDevice.Spares`: Buffers and kernels that are there, and
  those that are as before.
* `Parallel.Owner`: The buffers and kernels of an engine.

## Theorems

* `Parallel.Owner.asks_maintains`: A request touches only what the engine owns.
* `Solver.perform_tended`: So does an operation.
* `Parallel.Owner.release_freed`: What is given back in the end.
-/

namespace BoundedSimplex

open Exec

/-! ### Arguments -/

namespace CompiledKernel

/-- A kernel with as many places as it has arguments, and bound to buffers of the list only.
    A place that is still empty is allowed, since kernels are bound one argument after the
    other. -/
structure Binds (buffers : List Nat) (k : CompiledKernel) : Prop where
  size : k.args.size = k.entry.arity
  mem : ∀ (i id : Nat), (k.args[i]?).join = some (Arg.buffer id) → id ∈ buffers

variable {k : CompiledKernel} {buffers : List Nat} {inv : Invocation}

/-- Every buffer of a launch is one of the list. -/
theorem Binds.buffer_mem (h : k.Binds buffers) {size : LaunchSize} {limit : Nat}
    (hinv : k.invocation size limit = .ok inv) {i : Nat} (hi : i < inv.entry.bufferCount) :
    inv.buffer i ∈ buffers := by
  have hgiven := given_of_invocation hinv
  rw [hgiven.entry] at hi
  refine h.mem _ _ (hgiven.arg_of_buffer ?_)
  rw [h.size, Entry.arity]
  omega

/-- It may be bound to a number or to another of these buffers. -/
theorem Binds.withArg (h : k.Binds buffers) (i : Nat) {a : Arg}
    (ha : ∀ b, a.buffer? = some b → b ∈ buffers) : (k.withArg i a).Binds buffers := by
  refine ⟨(Array.size_setIfInBounds).trans h.size, fun j b hj => ?_⟩
  rw [CompiledKernel.withArg, Array.getElem?_setIfInBounds] at hj
  by_cases hij : i = j
  · rw [if_pos hij] at hj
    by_cases hlt : i < k.args.size
    · rw [if_pos hlt] at hj
      cases hj
      exact ha b rfl
    · rw [if_neg hlt] at hj
      cases hj
  · rw [if_neg hij] at hj
    exact h.mem j b hj

end CompiledKernel

/-! ### Requests -/

/-- A transfer to a buffer replaces its words by as many. -/
theorem Memory.write_eq_ok {m m' : Memory} {id offset : Nat} {data : Words}
    (h : m.write id offset data = .ok m') :
    ∃ old ws : Words, m.words? id = some old ∧ ws.size = old.size ∧ m' = m.store id ws := by
  unfold Memory.write Memory.transfer Memory.words at h
  cases hold : m.words? id with
  | none =>
      rw [hold] at h
      cases h
  | some old =>
      rw [hold] at h
      simp only [Bind.bind, Except.bind] at h
      by_cases hbad : offset % 4 ≠ 0 ∨ 4 * data.size % 4 ≠ 0 ∨ old.size * 4 < offset + 4 * data.size
      · rw [if_pos hbad] at h
        cases h
      · rw [if_neg hbad] at h
        cases h
        exact ⟨old, _, rfl, Words.size_overlay (by omega), rfl⟩

namespace HostDevice

/-- These buffers and kernels are there, and the kernels are bound to these buffers only.
    The second part is what makes a launch of one of the kernels an affair of the owner
    alone. -/
structure Holds (buffers kernels : List Nat) (h : HostDevice) : Prop where
  live : ∀ id ∈ buffers, (h.memory.words? id).isSome
  bound : ∀ id ∈ kernels, ∃ k, (h.kernels[id]?).join = some k ∧ k.Binds buffers

/-- All other buffers and kernels are as they were, also those that were free and still are. -/
structure Spares (buffers kernels : List Nat) (h h' : HostDevice) : Prop where
  words : ∀ id ∉ buffers, h'.memory.words? id = h.memory.words? id
  kernels : ∀ id ∉ kernels, (h'.kernels[id]?).join = (h.kernels[id]?).join

/-- The device as a user of it that owns these buffers and kernels left it: they are still
    there, and all others are as they were. Steps of a user are composed with this, so it is
    shown of single requests and follows for whole operations. -/
structure Tended (buffers kernels : List Nat) (h h' : HostDevice) : Prop where
  holds : Holds buffers kernels h'
  spares : Spares buffers kernels h h'

/-- How an operation with these rights stops: as it should, or at an index outside a table
    in a kernel. In the second case the output of that kernel is lost, and with it one of
    the buffers of the owner, but still nothing else. -/
structure Left (R : Right → Prop) (buffers kernels : List Nat) (h : HostDevice) (e : Stop)
    (h' : HostDevice) : Prop where
  holds : Holds buffers kernels h' ∨ R .run ∧ e = .outOfRange
  spares : Spares buffers kernels h h'

/-- These buffers and kernels are gone, and all others are as they were. -/
structure Freed (buffers kernels : List Nat) (h h' : HostDevice) : Prop where
  noBuffer : ∀ id ∈ buffers, h'.memory.words? id = none
  noKernel : ∀ id ∈ kernels, (h'.kernels[id]?).join = none
  spares : Spares buffers kernels h h'

variable {buffers kernels : List Nat} {h h₀ : HostDevice} {R : Right → Prop} {id : Nat}

theorem Spares.refl (h : HostDevice) : Spares buffers kernels h h :=
  ⟨fun _ _ => rfl, fun _ _ => rfl⟩

theorem Tended.left (ht : Tended buffers kernels h₀ h) (e : Stop) : Left R buffers kernels h₀ e h :=
  ⟨.inl ht.holds, ht.spares⟩

/-- A buffer of the list is written. -/
theorem Tended.store (ht : Tended buffers kernels h₀ h) (hid : id ∈ buffers) {old : Words}
    (hold : h.memory.words? id = some old) (ws : Words) :
    Tended buffers kernels h₀ { h with memory := h.memory.store id ws } := by
  refine ⟨⟨fun other hother => ?_, ht.holds.bound⟩, fun other hother => ?_, ht.spares.kernels⟩
  · rw [Memory.words?_store other hold]
    split
    · rfl
    · exact ht.holds.live other hother
  · rw [Memory.words?_store other hold, if_neg (fun heq : id = other => hother (heq ▸ hid))]
    exact ht.spares.words other hother

/-- A buffer of the list is lost. -/
theorem Tended.lose (ht : Tended buffers kernels h₀ h) (hid : id ∈ buffers) :
    Spares buffers kernels h₀ { h with memory := h.memory.release id } := by
  refine ⟨fun other hother => ?_, ht.spares.kernels⟩
  rw [Memory.words?_release, if_neg (fun heq : id = other => hother (heq ▸ hid))]
  exact ht.spares.words other hother

/-- A kernel of the list is bound to a number or to a buffer of the list. -/
theorem setArg_ends (ht : Tended buffers kernels h₀ h) (hid : id ∈ kernels) (i : Nat) {a : Arg}
    (ha : ∀ b, a.buffer? = some b → b ∈ buffers) :
    (setArg id i a).Ends h (fun _ => Tended buffers kernels h₀) (Left R buffers kernels h₀) := by
  rcases ht.holds.bound id hid with ⟨k, hk, hbinds⟩
  have hkernel : h.kernel id = .ok k := by rw [kernel, hk]
  refine Exec.Yields.state.ends ((Exec.Yields.check hkernel).ends ?_)
  cases hindex : Error.checkIndex i k.args.size with
  | error e => exact (Exec.Stops.check rfl (ht.left _)).bind.ends
  | ok _ =>
      refine (Exec.Yields.check rfl).ends (Exec.Gives.ends (Exec.Gives.update ?_))
      refine ⟨⟨ht.holds.live, fun other hother => ?_⟩, ht.spares.words, fun other hother => ?_⟩
      · rw [Array.getElem?_setIfInBounds]
        by_cases heq : id = other
        · rcases Array.getElem?_eq_some_iff.mp (Option.join_eq_some_iff.mp hk) with ⟨hlt, -⟩
          rw [if_pos heq, if_pos hlt]
          exact ⟨_, rfl, hbinds.withArg i ha⟩
        · rw [if_neg heq]
          exact ht.holds.bound other hother
      · rw [Array.getElem?_setIfInBounds, if_neg (fun heq : id = other => hother (heq ▸ hid))]
        exact ht.spares.kernels other hother

/-- A buffer of the list is written, or the transfer is refused. -/
theorem write_ends (ht : Tended buffers kernels h₀ h) (hid : id ∈ buffers) (offset : Nat)
    (data : Words) :
    (write id offset data).Ends h (fun _ => Tended buffers kernels h₀)
      (Left R buffers kernels h₀) := by
  refine Exec.Yields.state.ends ?_
  cases hwrite : h.memory.write id offset data with
  | error e => exact (Exec.Stops.check rfl (ht.left _)).bind.ends
  | ok m =>
      rcases Memory.write_eq_ok hwrite with ⟨old, ws, hold, -, rfl⟩
      exact (Exec.Yields.check rfl).ends (Exec.Gives.ends (Exec.Gives.update
        (ht.store hid hold ws)))

theorem read_ends (ht : Tended buffers kernels h₀ h) (id offset count : Nat) :
    (read id offset count).Ends h (fun _ => Tended buffers kernels h₀)
      (Left R buffers kernels h₀) := by
  refine Exec.Yields.state.ends ?_
  cases h.memory.read id offset count with
  | error e => exact (Exec.Stops.check rfl (ht.left _)).ends
  | ok ws => exact Exec.Gives.ends (Exec.Gives.check rfl ht)

/-- A kernel of the list writes a buffer of the list. -/
theorem launch_ends (hrun : R .run) (ht : Tended buffers kernels h₀ h) (hid : id ∈ kernels)
    (size : LaunchSize) :
    (launch id size).Ends h (fun _ => Tended buffers kernels h₀) (Left R buffers kernels h₀) := by
  rcases ht.holds.bound id hid with ⟨k, hk, hbinds⟩
  have hkernel : h.kernel id = .ok k := by rw [kernel, hk]
  refine Exec.Yields.state.ends ((Exec.Yields.check hkernel).ends ?_)
  cases hinv : k.invocation size h.limits.maxWorkgroupSize with
  | error e => exact (Exec.Stops.check rfl (ht.left _)).bind.ends
  | ok inv =>
      refine (Exec.Yields.check rfl).ends (Exec.Yields.emit.ends ?_)
      have hends := inv.run_settles h.memory
      have hout := hbinds.buffer_mem hinv inv.entry.output_lt
      by_cases hacc : inv.Accepts h.memory
      · by_cases hstays : inv.Stays h.memory
        · rcases hends.ends hacc hstays with ⟨m, hm, hrun⟩
          rw [hrun]
          refine Exec.Yields.update.ends (Exec.Ends.pure ?_)
          cases hm with
          | same => exact ht
          | words ws hold _ => exact ht.store hout hold ws
        · rw [hends.leaves hacc hstays]
          exact Exec.Yields.update.ends fun _ => ⟨.inr ⟨hrun, rfl⟩, ht.lose hout⟩
      · rcases hends.refuses hacc with ⟨e, hrun⟩
        rw [hrun]
        exact Exec.Yields.update.ends fun _ => ht.left _

end HostDevice

/-! ### Engines -/

namespace Parallel

/-- The engine owns these buffers and kernels, and has one kernel for each entry. Only the
    numbers matter, not what is in the buffers. -/
structure Owner (buffers kernels : List Nat) (p : Parallel) : Prop where
  buffers : p.bufferIds = buffers
  kernels : p.kernelIds = kernels
  entries : p.kernels.map Prod.fst = Entry.all

variable {buffers kernels : List Nat} {p : Parallel} {h₀ : HostDevice} {R : Right → Prop}

theorem Owner.slot_mem (hp : p.Owner buffers kernels) (s : Slot) : (p.slot s).id ∈ buffers := by
  have hs : s ∈ Slot.all := by
    cases s with
    | sums second => cases second <;> decide
    | _ => decide
  rw [← hp.buffers]
  exact List.mem_map_of_mem hs

/-- Every kernel of the engine is listed under its entry, and under that only. -/
theorem lookup_of_mem {l : List (Entry × Nat)} (hnodup : (l.map Prod.fst).Nodup) {q : Entry × Nat}
    (hq : q ∈ l) : l.lookup q.1 = some q.2 := by
  induction l with
  | nil => cases hq
  | cons q' rest ih =>
      rw [List.map_cons, List.nodup_cons] at hnodup
      rw [List.lookup_cons]
      rcases List.mem_cons.mp hq with rfl | hrest
      · rw [beq_self_eq_true]
      · have hne : q.1 ≠ q'.1 := fun heq => hnodup.1 (heq ▸ List.mem_map_of_mem hrest)
        rw [beq_false_of_ne hne]
        exact ih hnodup.2 hrest

theorem Owner.kernel_of_mem (hp : p.Owner buffers kernels) {q : Entry × Nat} (hq : q ∈ p.kernels) :
    p.kernel q.1 = q.2 := by
  have hnodup : (p.kernels.map Prod.fst).Nodup := by
    rw [hp.entries]
    decide
  rw [kernel, lookup_of_mem hnodup hq, Option.getD_some]

theorem Owner.kernel_mem (hp : p.Owner buffers kernels) (e : Entry) : p.kernel e ∈ kernels := by
  have he : e ∈ p.kernels.map Prod.fst := by
    rw [hp.entries]
    cases e <;> decide
  rcases List.mem_map.mp he with ⟨q, hq, rfl⟩
  rw [hp.kernel_of_mem hq, ← hp.kernels]
  exact List.mem_reverse.mpr (List.mem_map_of_mem hq)

/-- A part of the device behind the gateway. -/
theorem onHost_maintains {α : Type} {act : Exec HostDevice α} {I : HostDevice → Prop}
    {Q : Stop → HostDevice → Prop} (h : ∀ host, I host → act.Ends host (fun _ => I) Q) :
    (Device.onHost act).Maintains (fun d => I d.host) fun e d => Q e d.host :=
  .focus fun d hd => h d.host hd

theorem ask_maintains {I : HostDevice → Prop} {Q : Stop → HostDevice → Prop}
    (hstop : ∀ e host, I host → Q e host) (r : Request) :
    (Device.ask r).Maintains (fun d => I d.host) fun e d => Q e d.host := by
  intro d hd
  refine Exec.Yields.state.ends (Exec.Yields.update.ends ?_)
  split
  · exact .fail (hstop _ _ hd)
  · exact .pure hd

open HostDevice in
/-- A request touches only what the engine owns. A launch may also stop in the middle, and
    then its output is lost; that buffer is one of the engine too. -/
theorem Owner.asks_maintains (hp : p.Owner buffers kernels) {α : Type} {act : Exec Device α}
    (h : p.Asks R act) : act.Maintains (fun d => Tended buffers kernels h₀ d.host)
      fun e d => Left R buffers kernels h₀ e d.host := by
  -- A refusal changes nothing but the count of requests.
  have hask : ∀ r, (Device.ask r).Maintains (fun d => Tended buffers kernels h₀ d.host)
      fun e d => Left R buffers kernels h₀ e d.host := ask_maintains fun e _ ht => ht.left e
  cases h with
  | setArg e i a _ ha =>
      refine (hask _).bind fun _ => onHost_maintains fun host ht =>
        setArg_ends ht (hp.kernel_mem e) i fun b hb => ?_
      rcases ha b hb with ⟨s, rfl⟩
      exact hp.slot_mem s
  | launch e size hrun =>
      exact (hask _).bind fun _ => Maintains.bind (.update fun _ hd => hd) fun _ =>
        onHost_maintains fun host ht => launch_ends hrun ht (hp.kernel_mem e) size
  | write s offset data _ =>
      exact (hask _).bind fun _ => (onHost_maintains fun host ht =>
        write_ends ht (hp.slot_mem s) offset data).bind fun _ => .update fun _ hd => hd
  | read s offset count =>
      exact (hask _).bind fun _ => (onHost_maintains fun host ht =>
        read_ends ht _ offset count).bind fun _ => Maintains.bind (.update fun _ hd => hd) fun _ =>
          .pure _
  | look _ _ => exact .view _

/-- The workspace of an engine that owns these buffers and kernels and has touched
    no others. -/
structure Tended (buffers kernels : List Nat) (h₀ : HostDevice) (w : Desk) : Prop where
  owner : w.engine.handle.Owner buffers kernels
  device : HostDevice.Tended buffers kernels h₀ w.engine.device.host

/-- The same where an operation with these rights has stopped. -/
structure Left (R : Right → Prop) (buffers kernels : List Nat) (h₀ : HostDevice) (e : Stop)
    (w : Desk) : Prop where
  owner : w.engine.handle.Owner buffers kernels
  device : HostDevice.Left R buffers kernels h₀ e w.engine.device.host

theorem Tended.left {w : Desk} (hw : Tended buffers kernels h₀ w) (e : Stop) :
    Left R buffers kernels h₀ e w :=
  ⟨hw.owner, hw.device.left e⟩

/-- An operation of the engine touches only what the engine owns. -/
theorem maintains_tended {α : Type} {act : Exec Desk α} (h : Composed (Moves R) act) :
    act.Maintains (Tended buffers kernels h₀) (Left R buffers kernels h₀) := by
  refine maintains_of_moves (fun _ γ act hact d hd => ?_) (fun _ _ _ _ hw => ⟨?_, hw.device⟩)
    (fun _ _ _ hw => ⟨hw.owner, hw.device⟩) (fun e _ hw => hw.left e) h
  · exact (hd.owner.asks_maintains hact d hd.device).mono (fun _ _ hd' => ⟨hd.owner, hd'⟩)
      fun _ _ hd' => ⟨hd.owner, hd'⟩
  · exact ⟨hw.owner.buffers, hw.owner.kernels, hw.owner.entries⟩

/-! ### What is given back -/

theorem release_slots (p : Parallel) (l : List Slot) : ∀ d : Device,
    (∀ id, (l.foldl (fun d s => (p.slot s).release d) d).host.memory.words? id
      = if id ∈ l.map (fun s => (p.slot s).id) then none else d.host.memory.words? id) ∧
    (l.foldl (fun d s => (p.slot s).release d) d).host.kernels = d.host.kernels := by
  induction l with
  | nil => exact fun d => ⟨fun _ => rfl, rfl⟩
  | cons s rest ih =>
      intro d
      rcases ih ((p.slot s).release d) with ⟨hwords, hkernels⟩
      refine ⟨fun id => ?_, hkernels⟩
      -- A buffer that comes again later in the list is gone either way.
      rw [List.foldl_cons, hwords id, List.map_cons]
      by_cases hrest : id ∈ rest.map (fun s => (p.slot s).id)
      · rw [if_pos hrest, if_pos (List.mem_cons_of_mem _ hrest)]
      · rw [if_neg hrest]
        refine (Memory.words?_release d.host.memory (p.slot s).id id).trans ?_
        refine if_congr ?_ rfl rfl
        rw [List.mem_cons, or_iff_left hrest, eq_comm]

theorem release_kernels (l : List (Entry × Nat)) : ∀ d : Device,
    (∀ id : Nat, ((l.foldl (fun d q => d.releaseKernel q.2) d).host.kernels[id]?).join
      = if id ∈ l.map Prod.snd then none else (d.host.kernels[id]?).join) ∧
    (l.foldl (fun d q => d.releaseKernel q.2) d).host.memory = d.host.memory := by
  induction l with
  | nil => exact fun d => ⟨fun _ => rfl, rfl⟩
  | cons q rest ih =>
      intro d
      rcases ih (d.releaseKernel q.2) with ⟨hkernels, hmemory⟩
      refine ⟨fun id => ?_, hmemory⟩
      rw [List.foldl_cons, hkernels id, List.map_cons]
      -- A number that comes again later on is released there in any case.
      by_cases hrest : id ∈ rest.map Prod.snd
      · rw [if_pos hrest, if_pos (List.mem_cons_of_mem _ hrest)]
      · rw [if_neg hrest]
        show ((d.host.kernels.setIfInBounds q.2 none)[id]?).join = _
        rw [Array.getElem?_setIfInBounds]
        by_cases hid : q.2 = id
        · rw [if_pos hid, if_pos (List.mem_cons.mpr (.inl hid.symm))]
          split <;> rfl
        · rw [if_neg hid, if_neg]
          exact fun hmem => (List.mem_cons.mp hmem).elim (fun heq => hid heq.symm) hrest

/-- An engine that is dropped gives back what it owns and nothing else. This asks for
    nothing to be there, as a number that is not in use is ignored. -/
theorem Owner.release_freed (hp : p.Owner buffers kernels) (d : Device) :
    HostDevice.Freed buffers kernels d.host (p.release d).host := by
  -- The kernels go first and the buffers after them in reverse order, as they were made. Neither
  -- part looks at the other, so the two effects are read off separately.
  have heq : p.release d = Slot.all.reverse.foldl (fun d s => (p.slot s).release d)
      (p.kernels.foldl (fun d q => d.releaseKernel q.2) d) := rfl
  rcases release_kernels p.kernels d with ⟨hkernels, hmemory⟩
  rcases release_slots p Slot.all.reverse (p.kernels.foldl (fun d q => d.releaseKernel q.2) d) with
    ⟨hwords, hsame⟩
  have hslots : ∀ id, id ∈ Slot.all.reverse.map (fun s => (p.slot s).id) ↔ id ∈ buffers := by
    intro id
    rw [List.map_reverse, List.mem_reverse, ← hp.buffers, bufferIds]
  have hnumbers : ∀ id, id ∈ p.kernels.map Prod.snd ↔ id ∈ kernels := by
    intro id
    rw [← hp.kernels, kernelIds, List.mem_reverse]
  rw [heq]
  refine ⟨fun id hid => ?_, fun id hid => ?_, fun id hid => ?_, fun id hid => ?_⟩
  · rw [hwords, if_pos ((hslots id).mpr hid)]
  · rw [hsame, hkernels, if_pos ((hnumbers id).mpr hid)]
  · rw [hwords, if_neg (mt (hslots id).mp hid), hmemory]
  · rw [hsame, hkernels, if_neg (mt (hnumbers id).mp hid)]

end Parallel

/-! ### Solvers -/

namespace Solver

variable {buffers kernels : List Nat} {h₀ : HostDevice} {R : Right → Prop}
  {t u : Traced (Solver (Attached Parallel) Binary32)}

/-- What has no kernel run leaves everything as it should be, however it ends. -/
theorem maintains_tended (hrun : ¬ R .run) {α : Type}
    {act : Exec (Solver (Attached Parallel) Binary32) α} (h : Composed (Moves R) act) :
    act.Maintains (fun s => Parallel.Tended buffers kernels h₀ s.workspace)
      fun _ s => Parallel.Tended buffers kernels h₀ s.workspace :=
  (maintains_of_moves Parallel.maintains_tended (fun e _ hw => hw.left e) h).mono_stop
    fun _ _ hs => ⟨hs.owner, hs.device.holds.resolve_right fun hlost => hrun hlost.1,
      hs.device.spares⟩

/-- A part of the system is described without a kernel. -/
theorem call_maintains_tended (c : BuildCall Binary32) :
    (call c : Exec (Solver (Attached Parallel) Binary32) Unit).Maintains
      (fun s => Parallel.Tended buffers kernels h₀ s.workspace)
      fun _ s => Parallel.Tended buffers kernels h₀ s.workspace := by
  cases c with
  -- An edit moves words between host and device but never launches anything.
  | bounds v e =>
      exact maintains_tended (R := fun x => x ≠ .run) (fun hne => hne rfl)
        (edit_moves v e nofun nofun nofun)
  -- A row stays on the host until the search begins.
  | constraint coeffs =>
      refine Maintains.bind (maintains_tended (R := fun _ => False) id ensureBuilding_moves)
        fun _ s hs => Exec.Yields.state.ends ?_
      cases hrow : s.workspace.tableau.addRow coeffs with
      | error e =>
          have hstop : (Exec.check (Except.error e : Except Error (Nat × Tableau Binary32)) :
              Exec (Solver (Attached Parallel) Binary32) _).Stops s (.error e)
                fun s => Parallel.Tended buffers kernels h₀ s.workspace := .check rfl hs
          exact hstop.bind.ends
      | ok added =>
          refine (Exec.Yields.check rfl).ends (Exec.Yields.update.ends ?_)
          exact Exec.Gives.ends (Exec.Gives.emit ⟨hs.owner, hs.device⟩)

/-- An operation touches only what the engine owns, and leaves all of that there,
    unless it is a search that meets an index outside a table. -/
theorem perform_tended {o : Operation Binary32}
    (ht : Parallel.Tended buffers kernels h₀ t.state.workspace)
    (hsolve : ∀ fuel u, o = .solve fuel → solve fuel t ≠ .error .outOfRange u) :
    Parallel.Tended buffers kernels h₀ (Exec.final (perform o t)).state.workspace := by
  by_cases hbuild : ∃ c, o = .build c
  · rcases hbuild with ⟨c, rfl⟩
    exact Exec.Ends.final ((call_maintains_tended c).bind (fun _ => .pure _) _ ht)
  -- Only a search has kernels run, so nothing else can lose a buffer.
  by_cases hsearch : ∃ fuel, o = .solve fuel
  · rcases hsearch with ⟨fuel, rfl⟩
    have hends := solve_maintains Parallel.maintains_tended (fun e _ hw => hw.left e) fuel
      t.state ht
    cases hrun : solve fuel t with
    | ok sat u =>
        rw [perform, bind_ok hrun]
        exact hends.result hrun
    | error e u =>
        have hleft := hends.stopped hrun
        have hne : e ≠ .outOfRange := by
          rintro rfl
          exact hsolve fuel u rfl hrun
        rw [perform, bind_error hrun]
        exact ⟨hleft.owner, hleft.device.holds.resolve_right fun hlost => hne hlost.2,
          hleft.device.spares⟩
  · exact Exec.Ends.final (maintains_tended (R := fun _ => False) id (asked_moves
      (fun c hc => hbuild ⟨c, hc⟩) fun fuel hf => hsearch ⟨fuel, hf⟩) _ ht)

end Solver

end BoundedSimplex
