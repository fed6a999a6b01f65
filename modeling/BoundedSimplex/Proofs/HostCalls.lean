import BoundedSimplex.Proofs.Arguments
import BoundedSimplex.Proofs.Endings
import BoundedSimplex.Proofs.Keeping

/-!
# Calls to the Host Device

The states a host device can be in, and how its launches end.

A device starts without buffers and kernels, and every call is made on the state
that the one before it left, however that one ended. Some calls name buffers or
kernels that are not there and are refused; the device can be used after that,
and even after a call that met an index outside a table. In all states reached in
this way every kernel has as many places as it has arguments, so a launch that
gets as far as the kernel has all its scalars and all its buffers.

A launch stands for an invocation of its kernel, or there is a reason why not.
What the kernel does then has been said in `Invocation.run_settles`; here this is
said of the device.

## Main definitions

* `HostCall`: The public calls.
* `HostDevice.Reached`: The states that calls lead to.
* `HostDevice.request`: The invocation that a launch stands for.

## Theorems

* `HostDevice.Reached.args_size`: Every kernel has a place for each argument.
* `HostDevice.launch_cases`: How a launch can end, and when.
-/

namespace BoundedSimplex

/-- The public calls to a device. -/
inductive HostCall where
  | allocate (sizeBytes : Nat)
  | release (id : Nat)
  | compile (source : KernelSource) (entry : String)
  | releaseKernel (id : Nat)
  | setArg (id index : Nat) (arg : Arg)
  | launch (id : Nat) (size : LaunchSize)
  | write (id offset : Nat) (data : List UInt8)
  | read (id offset length : Nat)

namespace HostCall

/-- Make a call. What it answers does not matter here. -/
def perform : HostCall → Exec HostDevice Unit
  | allocate sizeBytes => do let _ ← HostDevice.allocate sizeBytes
  | release id => Exec.update (HostDevice.release id)
  | compile source entry => do let _ ← HostDevice.compile source entry
  | releaseKernel id => Exec.update (HostDevice.releaseKernel id)
  | setArg id index arg => HostDevice.setArg id index arg
  | launch id size => HostDevice.launch id size
  | write id offset data => HostDevice.writeBytes id offset data
  | read id offset length => do let _ ← HostDevice.readBytes id offset length

/-- The device after a call, however that ended. -/
def after (c : HostCall) (d : HostDevice) (j : Journal) : HostDevice :=
  (Exec.final (c.perform ⟨d, j⟩)).state

end HostCall

namespace HostDevice

/-- The states that calls to a new device lead to. The calls may be any, also ones that are
    refused or that stop the device with an index outside a table. -/
inductive Reached : HostDevice → Prop where
  | idle (limits : Limits) : Reached (idle limits)
  | call {d : HostDevice} (c : HostCall) (j : Journal) : Reached d → Reached (c.after d j)

/-- The device after a list of calls, one after the other. -/
def afterAll (d : HostDevice) (calls : List HostCall) : HostDevice :=
  calls.foldl (fun d c => c.after d #[]) d

theorem Reached.afterAll {d : HostDevice} (h : Reached d) (calls : List HostCall) :
    Reached (d.afterAll calls) :=
  List.foldlRecOn (motive := Reached) _ _ h fun _ hd c _ => hd.call c #[]

/-- Every kernel has a place for each of its arguments. -/
def Formed (d : HostDevice) : Prop :=
  ∀ (id : Nat) (k : CompiledKernel), (d.kernels[id]?).join = some k → k.args.size = k.entry.arity

variable {d : HostDevice} {id : Nat} {size : LaunchSize} {inv : Invocation}

theorem Formed.replace (h : d.Formed) (id : Nat) {k? : Option CompiledKernel}
    (hk : ∀ k, k? = some k → k.args.size = k.entry.arity) :
    Formed { d with kernels := d.kernels.setIfInBounds id k? } := by
  intro other k hother
  rw [Array.getElem?_setIfInBounds] at hother
  by_cases heq : id = other
  · rw [if_pos heq] at hother
    split at hother
    · exact hk k hother
    · cases hother
  · rw [if_neg heq] at hother
    exact h other k hother

theorem Formed.push (h : d.Formed) (e : Entry) :
    Formed { d with kernels := d.kernels.push (some (.fresh e)) } := by
  intro other k hother
  rw [Array.getElem?_push] at hother
  split at hother
  · cases hother
    exact Array.size_replicate
  · exact h other k hother

theorem kernel_eq_ok {k : CompiledKernel} :
    d.kernel id = .ok k ↔ (d.kernels[id]?).join = some k := by
  unfold kernel
  cases (d.kernels[id]?).join with
  | none => exact ⟨nofun, nofun⟩
  | some k' => rw [Except.ok.injEq, Option.some.injEq]

theorem setArg_maintains (id index : Nat) (arg : Arg) :
    (setArg id index arg).Maintains Formed fun _ => Formed := by
  intro d h
  refine Exec.Yields.state.ends ?_
  cases hk : d.kernel id with
  | error e => exact (Exec.Stops.check rfl h).bind.ends
  | ok k =>
      refine (Exec.Yields.check rfl).ends ?_
      cases hindex : Error.checkIndex index k.args.size with
      | error e => exact (Exec.Stops.check rfl h).bind.ends
      | ok _ =>
          refine (Exec.Yields.check rfl).ends (Exec.Gives.ends (Exec.Gives.update ?_))
          -- Binding replaces one argument of a kernel by another, so the kernel has as many as
          -- before.
          refine h.replace id fun k' hk' => ?_
          cases hk'
          exact Array.size_setIfInBounds.trans (h id k (kernel_eq_ok.mp hk))

/-- Only compiling and binding change the kernels, and they keep to this. -/
theorem perform_maintains (c : HostCall) : c.perform.Maintains Formed fun _ => Formed := by
  have hstate : (Exec.state : Exec HostDevice HostDevice).Maintains Formed fun _ => Formed :=
    fun _ h _ => h
  have hresult : ∀ {α : Type} (r : Except Stop α),
      (Exec.ofExcept r : Exec HostDevice α).Maintains Formed fun _ => Formed := by
    intro α r d h
    cases r with
    | ok _ => exact Exec.Ends.pure h
    | error e => exact fun _ => h
  -- One case per call. Apart from compiling and binding every case is a chain of steps that do
  -- not look at the kernels.
  cases c with
  | allocate sizeBytes =>
      exact .bind (.bind hstate fun _ => .bind (.update fun _ h => h) fun _ =>
        .bind (.emit _) fun _ => .pure _) fun _ => .pure _
  | release id => exact .update fun _ h => h
  | compile source entry =>
      refine .bind (?_ : (compile source entry).Maintains Formed fun _ => Formed) fun _ => .pure _
      unfold compile
      split
      · exact .stop _ fun _ h => h
      · split
        · exact .stop _ fun _ h => h
        · exact .bind hstate fun _ => .bind (.update fun _ h => h.push _) fun _ => .pure _
  | releaseKernel id => exact .update fun _ h => h.replace id nofun
  | setArg id index arg => exact setArg_maintains id index arg
  | launch id size =>
      exact .bind hstate fun _ => .bind (hresult _) fun _ => .bind (hresult _) fun _ =>
        .bind (.emit _) fun _ => .bind (.update fun _ h => h) fun _ => hresult _
  | write id offset data =>
      exact .bind hstate fun _ => .bind (hresult _) fun _ => .update fun _ h => h
  | read id offset length =>
      exact .bind (.bind hstate fun _ => hresult _) fun _ => .pure _

theorem Reached.formed (h : Reached d) : d.Formed := by
  induction h with
  | idle limits => exact fun id k hk => nomatch hk
  | call c j _ ih => exact Exec.Ends.final (t := ⟨_, j⟩) (perform_maintains c _ ih)

/-- Every kernel has a place for each of its arguments. A kernel is compiled with empty
    places, and setting an argument outside of them is refused. -/
theorem Reached.args_size (h : Reached d) {k : CompiledKernel} (hk : d.kernel id = .ok k) :
    k.args.size = k.entry.arity :=
  h.formed id k (kernel_eq_ok.mp hk)

/-! ### Launches -/

/-- The invocation that a launch stands for, or why there is none. Up to here the device
    looks at the kernel and at sizes, and not at the memory. -/
def request (d : HostDevice) (id : Nat) (size : LaunchSize) : Except Error Invocation := do
  let k ← d.kernel id
  k.invocation size d.limits.maxWorkgroupSize

/-- An invocation is one of the kernel with that number. -/
theorem request_eq_ok (h : d.request id size = .ok inv) :
    ∃ k, d.kernel id = .ok k ∧ k.invocation size d.limits.maxWorkgroupSize = .ok inv := by
  unfold request at h
  cases hk : d.kernel id with
  | error e =>
      rw [hk] at h
      cases h
  | ok k =>
      rw [hk] at h
      exact ⟨k, rfl, h⟩

/-- A launch without an invocation is refused. -/
theorem launch_refused {e : Error} (h : d.request id size = .error e) :
    (launch id size).Stops d (.error e) (· = d) := by
  unfold request at h
  refine Exec.Yields.state.stops ?_
  cases hk : d.kernel id with
  | error e' =>
      rw [hk] at h
      cases h
      exact (Exec.Stops.check (P := (· = d)) rfl rfl).bind
  | ok k =>
      rw [hk] at h
      refine (Exec.Yields.check rfl).stops ?_
      exact (Exec.Stops.check (P := (· = d)) (x := k.invocation _ _) h rfl).bind

/-- Otherwise it does to the memory what the kernel does, and ends as the kernel does. -/
theorem launch_leads (h : d.request id size = .ok inv) {r : Except Stop Unit} {m : Memory}
    (hrun : inv.run d.memory = (r, m)) :
    (launch id size).Leads d (Exec.ofExcept r) (· = { d with memory := m }) := by
  rcases request_eq_ok h with ⟨k, hk, hinv⟩
  refine Exec.Yields.state.leads ((Exec.Yields.check hk).leads ((Exec.Yields.check hinv).leads
    (Exec.Yields.emit.leads ?_)))
  rw [hrun]
  exact Exec.Yields.update.leads fun j => ⟨_, j, rfl, rfl⟩

/-- A kernel that does not accept its arguments leaves the device as it was. -/
theorem launch_refuses (h : d.request id size = .ok inv) (hacc : ¬ inv.Accepts d.memory) :
    ∃ e, (launch id size).Stops d (.error e) (· = d) := by
  rcases (inv.run_settles d.memory).refuses hacc with ⟨e, hrun⟩
  exact ⟨e, (launch_leads h hrun).stops fun d' hd' j => ⟨d', j, rfl, hd'⟩⟩

/-- A kernel that meets an index outside a table loses its output. -/
theorem launch_loses (h : d.request id size = .ok inv) (hacc : inv.Accepts d.memory)
    (hstays : ¬ inv.Stays d.memory) :
    (launch id size).Stops d .outOfRange
      (· = { d with memory := d.memory.release (inv.buffer inv.entry.output) }) :=
  (launch_leads h ((inv.run_settles d.memory).leaves hacc hstays)).stops fun d' hd' j =>
    ⟨d', j, rfl, hd'⟩

/-- In all other cases it replaces words of its output. -/
theorem launch_gives (h : d.request id size = .ok inv) (hacc : inv.Accepts d.memory)
    (hstays : inv.Stays d.memory) :
    (launch id size).Gives d fun _ d' =>
      ∃ m, d.memory.Rewritten (inv.buffer inv.entry.output) m ∧ d' = { d with memory := m } := by
  rcases (inv.run_settles d.memory).ends hacc hstays with ⟨m, hm, hrun⟩
  exact (launch_leads h hrun).gives fun d' hd' j => ⟨(), d', j, rfl, m, hm, hd'⟩

/-- How a launch can end, and when. There are three cases, by what the kernel accepts of the
    memory and whether it then stays in its tables, and no two of them overlap. -/
theorem launch_cases (d : HostDevice) (id : Nat) (size : LaunchSize) :
    ((∀ inv, d.request id size = .ok inv → ¬ inv.Accepts d.memory) ∧
      ∃ e, (launch id size).Stops d (.error e) (· = d)) ∨
    (∃ inv, d.request id size = .ok inv ∧ inv.Accepts d.memory ∧ ¬ inv.Stays d.memory ∧
      (launch id size).Stops d .outOfRange
        (· = { d with memory := d.memory.release (inv.buffer inv.entry.output) })) ∨
    ∃ inv, d.request id size = .ok inv ∧ inv.Accepts d.memory ∧ inv.Stays d.memory ∧
      (launch id size).Gives d fun _ d' =>
        ∃ m, d.memory.Rewritten (inv.buffer inv.entry.output) m ∧ d' = { d with memory := m } := by
  -- The three outcomes are told apart by what can be checked before anything runs, and by whether
  -- the work then stays inside the buffers.
  cases h : d.request id size with
  | error e => exact .inl ⟨nofun, e, launch_refused h⟩
  | ok inv =>
      by_cases hacc : inv.Accepts d.memory
      · by_cases hstays : inv.Stays d.memory
        · exact .inr (.inr ⟨inv, rfl, hacc, hstays, launch_gives h hacc hstays⟩)
        · exact .inr (.inl ⟨inv, rfl, hacc, hstays, launch_loses h hacc hstays⟩)
      · refine .inl ⟨?_, launch_refuses h hacc⟩
        rintro _ ⟨⟩
        exact hacc

end HostDevice

end BoundedSimplex
