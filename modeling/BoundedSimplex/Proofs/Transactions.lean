import BoundedSimplex.Proofs.HostCalls

/-!
# Launches as Transactions

A launch either takes effect as a whole or not at all.

While a kernel runs, its output is out of the memory and its words are replaced
one by one. A caller sees none of that. A launch that is refused leaves the device
as it was, with the output in its place and holding its old words, whether the
refusal came from the device or from the kernel. A launch that takes effect may
replace words of the one buffer that is bound as the output of its kernel, and that
buffer keeps its length; nothing else is changed, neither other buffers nor the
kernels and what is bound to them, nor the numbers that are given out next.

Since the output is out of the memory, a kernel cannot read the buffer that it
writes. A launch with one buffer in both places is refused.

## Main definitions

* `CompiledKernel.bound?`: The buffer that is bound in a place.
* `HostDevice.Rewrites`: Words of one buffer are all that differs.

## Theorems

* `HostDevice.launch_atomic`: What a launch leaves behind.
-/

namespace BoundedSimplex

/-- The buffer that is bound in one of the places for buffers. -/
def CompiledKernel.bound? (k : CompiledKernel) (i : Nat) : Option Nat :=
  ((k.args[k.entry.scalarCount + i]?).join).bind Arg.buffer?

theorem CompiledKernel.bound?_eq_some {k : CompiledKernel} {i b : Nat} :
    k.bound? i = some b ↔ (k.args[k.entry.scalarCount + i]?).join = some (.buffer b) := by
  unfold bound?
  cases (k.args[k.entry.scalarCount + i]?).join with
  | none => exact ⟨nofun, nofun⟩
  | some a => cases a with
    | word _ | number _ => exact ⟨nofun, nofun⟩
    | buffer _ =>
        rw [Option.some.injEq, Arg.buffer.injEq]
        exact Option.some_inj

/-- A memory in which words of one buffer were replaced: it has as many words as
    before, and all others are as they were. -/
theorem Memory.Rewritten.frame {m m' : Memory} {id : Nat} (h : m.Rewritten id m') :
    m'.buffers.size = m.buffers.size ∧ (∀ other, other ≠ id → m'.words? other = m.words? other) ∧
      (m'.words? id).map Array.size = (m.words? id).map Array.size := by
  cases h with
  | same => exact ⟨rfl, fun _ _ => rfl, rfl⟩
  | words ws hold hsize =>
      refine ⟨Array.size_setIfInBounds, fun other hne => ?_, ?_⟩
      · rw [words?_store other hold, if_neg (Ne.symm hne)]
      · rw [words?_store id hold, if_pos rfl, hold, Option.map_some, Option.map_some, hsize]

/-- A buffer that is the output as well cannot be found. -/
theorem Invocation.not_accepts_of_shared {inv : Invocation} {i : Nat}
    (hi : i < inv.entry.bufferCount) (hne : i ≠ inv.entry.output)
    (hshared : inv.buffer i = inv.buffer inv.entry.output) (m : Memory) : ¬ inv.Accepts m := by
  rintro (⟨hinner, -⟩ | ⟨hfinds, -⟩)
  -- The inner part of an exchange has no buffer but its output.
  · rw [hinner] at hi hne
    exact hne (Nat.lt_one_iff.mp hi)
  · exact hfinds.apart i hi hne hshared

namespace HostDevice

/-- The device but for the words of one buffer, of which there are as many: what it can run,
    its kernels with their arguments, the numbers that come next and all other buffers are
    the same. -/
structure Rewrites (out : Nat) (d d' : HostDevice) : Prop where
  limits : d'.limits = d.limits
  kernels : d'.kernels = d.kernels
  nextId : d'.memory.nextId = d.memory.nextId
  others : ∀ id, id ≠ out → d'.memory.words? id = d.memory.words? id
  length : (d'.memory.words? out).map Array.size = (d.memory.words? out).map Array.size

variable {d : HostDevice}

/-- A launch leaves the device as it was, or replaces words of the buffer that is
    bound as output and of no other. One buffer as output and as another buffer of the
    kernel is an error. -/
theorem launch_atomic (h : Reached d) (j : Journal) (id : Nat) (size : LaunchSize) :
    (∀ e t, launch id size ⟨d, j⟩ = .error (.error e) t → t.state = d) ∧
    (∀ t, launch id size ⟨d, j⟩ = .ok () t → ∃ k out, d.kernel id = .ok k ∧
      k.bound? k.entry.output = some out ∧ Rewrites out d t.state) ∧
    (∀ k i b, d.kernel id = .ok k → i < k.entry.bufferCount → i ≠ k.entry.output →
      k.bound? i = some b → k.bound? k.entry.output = some b →
      ∃ e t, launch id size ⟨d, j⟩ = .error (.error e) t) := by
  refine ⟨fun e t hrun => ?_, fun t hrun => ?_, fun k i b hk hi hne hinput houtput => ?_⟩
  -- Of the three ways in which a launch can end only the refusal is an error.
  · rcases launch_cases d id size with ⟨-, e', hstops⟩ | ⟨inv, -, -, -, hstops⟩ |
      ⟨inv, -, -, -, hgives⟩
    · exact (hstops.error_eq hrun).2
    · cases (hstops.error_eq hrun).1
    · exact absurd hrun hgives.not_error
  · rcases launch_cases d id size with ⟨-, e', hstops⟩ | ⟨inv, -, -, -, hstops⟩ |
      ⟨inv, hrequest, -, -, hgives⟩
    · exact absurd hrun hstops.not_ok
    · exact absurd hrun hstops.not_ok
    · rcases request_eq_ok hrequest with ⟨k, hk, hinv⟩
      have hgiven := CompiledKernel.given_of_invocation hinv
      -- A kernel was compiled with a place for each argument, so what it writes to is what was
      -- bound there.
      have hplace : k.entry.scalarCount + k.entry.output < k.args.size := by
        rw [h.args_size hk, Entry.arity]
        exact Nat.add_lt_add_left k.entry.output_lt _
      refine ⟨k, _, hk, CompiledKernel.bound?_eq_some.mpr (hgiven.arg_of_buffer hplace), ?_⟩
      rcases hgives.result hrun with ⟨m, hm, hd'⟩
      rw [hgiven.entry] at hm
      rw [hd']
      exact ⟨rfl, rfl, hm.frame.1, hm.frame.2.1, hm.frame.2.2⟩
  -- A buffer that is read and written is missing while the kernel has its output in hands.
  · have hrefused : ∀ inv, d.request id size = .ok inv → ¬ inv.Accepts d.memory := by
      intro inv hrequest
      rcases request_eq_ok hrequest with ⟨k', hk', hinv⟩
      cases hk.symm.trans hk'
      have hgiven := CompiledKernel.given_of_invocation hinv
      refine Invocation.not_accepts_of_shared (hgiven.entry ▸ hi) (hgiven.entry ▸ hne) ?_ d.memory
      rw [hgiven.buffer_of_arg (CompiledKernel.bound?_eq_some.mp hinput), hgiven.entry,
        hgiven.buffer_of_arg (CompiledKernel.bound?_eq_some.mp houtput)]
    rcases launch_cases d id size with ⟨-, e, hstops⟩ | ⟨inv, hrequest, hacc, -⟩ |
      ⟨inv, hrequest, hacc, -⟩
    · rcases hstops j with ⟨d', j', hrun, -⟩
      exact ⟨e, _, hrun⟩
    · exact absurd hacc (hrefused inv hrequest)
    · exact absurd hacc (hrefused inv hrequest)

/-- A device with a buffer of one word and one of two, and a kernel that folds the
    first into the buffer that is named. -/
def folding (out : Nat) : HostDevice :=
  (idle {}).afterAll [.allocate 4, .allocate 8, .write 1 0 [7, 0, 0, 0],
    .compile (.generalSimplex .host) "reduce_partial_sums", .setArg 0 0 (.word 1),
    .setArg 0 1 (.buffer 1), .setArg 0 2 (.buffer out)]

/-- Into the second buffer, whose first word is replaced; into the first, which is
    refused, and changes nothing. -/
theorem launch_atomic_folding :
    (∃ t, launch 0 (.linear 1 1) ⟨folding 2, #[]⟩ = .ok () t ∧
      t.state.memory.words? 2 = some #[7, 0] ∧ Rewrites 2 (folding 2) t.state) ∧
    ∃ e t, launch 0 (.linear 1 1) ⟨folding 1, #[]⟩ = .error (.error e) t ∧
      t.state = folding 1 := by
  -- Both devices were made by the same calls, but for the buffer that is bound as output.
  have hreached : ∀ out, Reached (folding out) := fun out => (Reached.idle {}).afterAll _
  constructor
  · have hends : Exec.endsWith (launch 0 (.linear 1 1) ⟨folding 2, #[]⟩)
        (fun _ t => t.state.memory.words? 2 = some #[7, 0]) = true := by decide +kernel
    rcases Exec.exists_of_endsWith hends with ⟨_, t, hrun, hwords⟩
    rcases (launch_atomic (hreached 2) #[] 0 (.linear 1 1)).2.1 t hrun with
      ⟨k, out, hk, hout, hrewrites⟩
    have hkernel : (folding 2).kernel 0 = .ok ⟨.reducePartialSums,
        #[some (.word 1), some (.buffer 1), some (.buffer 2)]⟩ := rfl
    cases hkernel.symm.trans hk
    cases (show some 2 = some out from hout)
    exact ⟨t, hrun, of_decide_eq_true hwords, hrewrites⟩
  · rcases (launch_atomic (hreached 1) #[] 0 (.linear 1 1)).2.2 ⟨.reducePartialSums, _⟩ 0 1 rfl
      (by decide) (by decide) rfl rfl with ⟨e, t, hrun⟩
    exact ⟨e, t, hrun, (launch_atomic (hreached 1) #[] 0 (.linear 1 1)).1 e t hrun⟩

end HostDevice

end BoundedSimplex
