import BoundedSimplex.Proofs.HostCalls

/-!
# Launches That Are Not Answered

Exactly when a launch meets an index outside a table.

A kernel compares the sizes of its buffers with its scalars before it starts, and a
launch with a buffer that is too short is refused. For three of the kernels these
checks cover all that is read later. The row of an exchange and the last two steps
of a sum are answered for all arguments, with success or with an error.

The other six read more than they check. The search for a broken variable compares
both bounds with the number of variables but not the mask that belongs to them; the
search for a suitable one checks neither bounds nor tableau, nor that the broken
variable is in range, and the correction only the values; two parts of an exchange
check the size of the tableau but not that row and column lie in it; the first step
of a sum looks up the values of column variables that it has not compared with
their number. `Invocation.Stays` lists what has to be there besides. Where it is
not, the kernel stops for good, and its output, which is out of the memory by then,
is never put back.

The checks themselves count the items of a workgroup, and three dimensions can hold
more of them than a word of 64 bits. A build that checks its arithmetic stops there,
before anything is touched. Any other build takes what is left of the number for the
number, and may go on to run the kernel.

## Main definitions

* `Exec.Answers`: A run that ended with a result or an error.
* `HostDevice.masked`: A device whose mask can be too short.

## Theorems

* `HostDevice.answers_iff`: When a launch is answered.
* `HostDevice.launchChecked_cases`: What checking for overflow changes.
* `HostDevice.launch_outcome`: What a launch comes to, answered or not.
-/

namespace BoundedSimplex

/-- The run ended with a result or with an error. In both cases the caller is told something
    and the process goes on. -/
def Exec.Answers {σ α : Type} : EStateM.Result Stop (Traced σ) α → Prop
  | .ok _ _ => True
  | .error (.error _) _ => True
  | .error _ _ => False

namespace HostDevice

variable {d : HostDevice}

/-- A launch is answered if and only if the kernel refuses its arguments or stays inside
    its tables. -/
theorem answers_iff (d : HostDevice) (j : Journal) (id : Nat) (size : LaunchSize) :
    Exec.Answers (launch id size ⟨d, j⟩) ↔
      ∀ inv, d.request id size = .ok inv → inv.Accepts d.memory → inv.Stays d.memory := by
  -- Only a launch that leaves its tables is not answered. It is the second of the three cases,
  -- and the condition fails in no other.
  rcases launch_cases d id size with ⟨hrefused, e, hstops⟩ | ⟨inv, hrequest, hacc, hstays, hstops⟩ |
    ⟨inv, hrequest, hacc, hstays, hgives⟩
  · rcases hstops j with ⟨d', j', hrun, -⟩
    rw [hrun]
    exact ⟨fun _ inv hrequest hacc => absurd hacc (hrefused inv hrequest), fun _ => trivial⟩
  · rcases hstops j with ⟨d', j', hrun, -⟩
    rw [hrun]
    exact ⟨False.elim, fun hall => hstays (hall inv hrequest hacc)⟩
  · rcases hgives j with ⟨_, d', j', hrun, -⟩
    rw [hrun]
    refine ⟨fun _ inv' hrequest' _ => ?_, fun _ => trivial⟩
    cases hrequest.symm.trans hrequest'
    exact hstays

/-- A build that checks its arithmetic stops at a known kernel whose workgroup has more
    items than a word counts, and nothing has happened by then. In all other cases it does
    what any build does. -/
theorem launchChecked_cases (d : HostDevice) (j : Journal) (id : Nat) (size : LaunchSize) :
    (∃ k, d.kernel id = .ok k ∧ size.countable = false ∧
      launchChecked id size ⟨d, j⟩ = .error .overflow ⟨d, j⟩) ∨
    ((∀ k, d.kernel id = .ok k → size.countable = true) ∧
      launchChecked id size ⟨d, j⟩ = launch id size ⟨d, j⟩) := by
  have hstate : ∀ act : HostDevice → Exec HostDevice Unit,
      (Exec.state >>= act) ⟨d, j⟩ = act d ⟨d, j⟩ := fun _ => rfl
  -- An unknown kernel is an error before anything is counted, in both builds.
  cases hk : d.kernel id with
  | error e =>
      have hunknown : (Exec.check (d.kernel id) : Exec HostDevice CompiledKernel) ⟨d, j⟩
          = .error (.error e) ⟨d, j⟩ := by rw [hk]; rfl
      have hchecked : launchChecked id size ⟨d, j⟩ = .error (.error e) ⟨d, j⟩ :=
        (hstate _).trans (Exec.bind_error hunknown)
      have hlaunch : launch id size ⟨d, j⟩ = .error (.error e) ⟨d, j⟩ :=
        (hstate _).trans (Exec.bind_error hunknown)
      exact .inr ⟨nofun, hchecked.trans hlaunch.symm⟩
  | ok k =>
      have hknown : (Exec.check (d.kernel id) : Exec HostDevice CompiledKernel) ⟨d, j⟩
          = .ok k ⟨d, j⟩ := by rw [hk]; rfl
      have hchecked : launchChecked id size ⟨d, j⟩
          = (if size.countable then launch id size else throw .overflow : Exec _ _) ⟨d, j⟩ :=
        (hstate _).trans (Exec.bind_ok hknown)
      rw [hchecked]
      cases hcount : size.countable with
      | false => exact .inl ⟨k, rfl, rfl, rfl⟩
      | true => exact .inr ⟨fun _ _ => rfl, rfl⟩

/-- An invocation has all scalars and buffers of its kernel. -/
theorem Reached.sizes_of_request (h : Reached d) {id : Nat} {size : LaunchSize} {inv : Invocation}
    (hrequest : d.request id size = .ok inv) :
    inv.scalars.size = inv.entry.scalarCount ∧ inv.buffers.size = inv.entry.bufferCount := by
  rcases request_eq_ok hrequest with ⟨k, hk, hinv⟩
  have hgiven := CompiledKernel.given_of_invocation hinv
  have hsorted := hgiven.sorted
  rw [h.args_size hk, Entry.arity, ← hgiven.entry] at hsorted
  rw [hsorted.scalars_size, hsorted.ids_size, ← hgiven.entry]
  omega

/-- What a launch of a device comes to, in all states that calls lead to. A launch that
    gets as far as its kernel has all scalars and buffers. It is answered if and only if
    the kernel refuses them or stays inside its tables; otherwise it is stopped by an
    index outside a table and its output is lost. Where arithmetic is checked, a launch is
    answered if and only if it is so and the items of its workgroup fit the word that they
    are counted in, or there is no such kernel. If they do not fit, nothing is lost. -/
theorem launch_outcome (h : Reached d) (j : Journal) (id : Nat) (size : LaunchSize) :
    (∀ inv, d.request id size = .ok inv →
      inv.scalars.size = inv.entry.scalarCount ∧ inv.buffers.size = inv.entry.bufferCount) ∧
    (Exec.Answers (launch id size ⟨d, j⟩) ↔
      ∀ inv, d.request id size = .ok inv → inv.Accepts d.memory → inv.Stays d.memory) ∧
    (¬ Exec.Answers (launch id size ⟨d, j⟩) → ∃ inv t, d.request id size = .ok inv ∧
      launch id size ⟨d, j⟩ = .error .outOfRange t ∧
      t.state = { d with memory := d.memory.release (inv.buffer inv.entry.output) }) ∧
    (Exec.Answers (launchChecked id size ⟨d, j⟩) ↔ Exec.Answers (launch id size ⟨d, j⟩) ∧
      ∀ k, d.kernel id = .ok k → size.countable = true) ∧
    (∀ k, d.kernel id = .ok k → size.countable = false →
      launchChecked id size ⟨d, j⟩ = .error .overflow ⟨d, j⟩) := by
  refine ⟨fun inv => h.sizes_of_request, answers_iff d j id size, fun hnot => ?_, ?_⟩
  · rcases launch_cases d id size with ⟨-, e, hstops⟩ | ⟨inv, hrequest, -, -, hstops⟩ |
      ⟨inv, -, -, -, hgives⟩
    · rcases hstops j with ⟨d', j', hrun, -⟩
      rw [hrun] at hnot
      exact absurd trivial hnot
    · rcases hstops j with ⟨d', j', hrun, hd'⟩
      exact ⟨inv, _, hrequest, hrun, hd'⟩
    · rcases hgives j with ⟨_, d', j', hrun, -⟩
      rw [hrun] at hnot
      exact absurd trivial hnot
  -- The build that checks stops before the one that does not, or does the same.
  · rcases launchChecked_cases d j id size with ⟨k, hk, hcount, hrun⟩ | ⟨hcount, hrun⟩
    · rw [hrun]
      refine ⟨iff_of_false nofun fun hboth => ?_, fun _ _ _ => rfl⟩
      rw [hboth.2 k hk] at hcount
      cases hcount
    · rw [hrun]
      refine ⟨⟨fun hanswers => ⟨hanswers, hcount⟩, And.left⟩, fun k hk hnot => ?_⟩
      rw [hcount k hk] at hnot
      cases hnot

/-- A device with the buffers of the search for a broken variable, for two basic
    variables without bounds and a mask of the given bytes. -/
@[irreducible] def masked (bytes : Nat) : HostDevice :=
  (idle {}).afterAll [.allocate 8, .allocate 8, .allocate bytes, .allocate 8, .allocate 8,
    .write 5 0 [1, 0, 0, 0, 1, 0, 0, 0], .allocate 4,
    .compile (.generalSimplex .host) "check_bounds", .setArg 0 0 (.word 2), .setArg 0 1 (.word 0),
    .setArg 0 2 (.number 0), .setArg 0 3 (.buffer 1), .setArg 0 4 (.buffer 2),
    .setArg 0 5 (.buffer 3), .setArg 0 6 (.buffer 4), .setArg 0 7 (.buffer 5),
    .setArg 0 8 (.buffer 6)]

theorem masked_reached (bytes : Nat) : Reached (masked bytes) := by
  unfold masked
  exact (Reached.idle {}).afterAll _

/-- With a mask for one variable only, the launch stops at the second one. -/
theorem not_answers_of_masked : ¬ Exec.Answers (launch 0 (.linear 2 2) ⟨masked 4, #[]⟩) := by
  have hstops : Exec.stopsWith (launch 0 (.linear 2 2) ⟨masked 4, #[]⟩)
      (fun e _ => e = .outOfRange) = true := by decide +kernel
  rcases Exec.exists_of_stopsWith hstops with ⟨e, t, hrun, he⟩
  rw [hrun, of_decide_eq_true he]
  exact id

/-- Then the output is gone; with a mask for both the kernel stays inside its tables. In a
    workgroup of `2 ^ 64` items it does not come to that where arithmetic is checked. -/
theorem launch_outcome_masked :
    (∃ t, launch 0 (.linear 2 2) ⟨masked 4, #[]⟩ = .error .outOfRange t ∧
      t.state.memory = (masked 4).memory.release 6) ∧
    (∀ inv, (masked 8).request 0 (.linear 2 2) = .ok inv → inv.Accepts (masked 8).memory →
      inv.Stays (masked 8).memory) ∧
    launchChecked 0 ⟨.of 2 1 1, .of (2 ^ 22) (2 ^ 21) (2 ^ 21)⟩ ⟨masked 8, #[]⟩
      = .error .overflow ⟨masked 8, #[]⟩ := by
  refine ⟨?_, ?_, ?_⟩
  · rcases (launch_outcome (masked_reached 4) #[] 0 (.linear 2 2)).2.2.1 not_answers_of_masked with
      ⟨inv, t, hrequest, hrun, ht⟩
    -- The output of this kernel is the last of its buffers, which is the sixth of the device.
    have houtput : ((masked 4).request 0 (.linear 2 2)).toOption.map
        (fun inv => inv.buffer inv.entry.output) = some 6 := by decide +kernel
    rw [hrequest] at houtput
    have houtput : inv.buffer inv.entry.output = 6 := Option.some.inj houtput
    refine ⟨t, hrun, ?_⟩
    rw [ht, houtput]
  · refine (launch_outcome (masked_reached 8) #[] 0 (.linear 2 2)).2.1.mp ?_
    have hends : Exec.endsWith (launch 0 (.linear 2 2) ⟨masked 8, #[]⟩)
        (fun _ _ => true) = true := by decide +kernel
    rcases Exec.exists_of_endsWith hends with ⟨_, t, hrun, -⟩
    rw [hrun]
    trivial
  -- The kernel is there, so the product of the three sizes is the first thing to fail.
  · have hkernel : ((masked 8).kernel 0).isOk = true := by decide +kernel
    cases hk : (masked 8).kernel 0 with
    | error e =>
        rw [hk] at hkernel
        cases hkernel
    | ok k =>
        exact (launch_outcome (masked_reached 8) #[] 0 _).2.2.2.2 k hk (by decide)

/-- So not every launch is answered. -/
theorem not_all_answered : ¬ ∀ d, Reached d → ∀ (j : Journal) (id : Nat) (size : LaunchSize),
    Exec.Answers (launch id size ⟨d, j⟩) :=
  fun h => not_answers_of_masked (h (masked 4) (masked_reached 4) #[] 0 (.linear 2 2))

end HostDevice

end BoundedSimplex
