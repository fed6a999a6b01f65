import BoundedSimplex.Device.Host

/-!
# Arguments of a Launch

What a kernel is given, by the places of its arguments.

A launch sorts the arguments of a kernel into scalars and buffers and stops at
the first that is missing or of the wrong kind. So if there is a launch at all,
the first places hold its scalars and the others its buffers, in the same order,
and a kernel with as many places as it has arguments gets all of them.

## Main definitions

* `CompiledKernel.Sorted`: The first arguments of a kernel, in two lists.

## Theorems

* `CompiledKernel.sorted_of_gather`: Sorting gives these lists.
* `CompiledKernel.given_of_invocation`: What a launch is made of.
* `CompiledKernel.Given.buffer_of_arg`, `CompiledKernel.Given.arg_of_buffer`: The buffers of a
  launch are those that are bound.
-/

namespace BoundedSimplex

namespace CompiledKernel

/-- The first `n` arguments of a kernel: the scalars and then the buffers. -/
structure Sorted (k : CompiledKernel) (n : Nat) (scalars : Array UInt32) (ids : Array Nat) :
    Prop where
  scalars_size : scalars.size = min n k.entry.scalarCount
  ids_size : ids.size = n - k.entry.scalarCount
  scalar : ∀ (i : Nat) (w : UInt32), scalars[i]? = some w →
    ∃ a : Arg, (k.args[i]?).join = some a ∧ a.scalarBits? = some w
  buffer : ∀ i id : Nat, ids[i]? = some id →
    (k.args[k.entry.scalarCount + i]?).join = some (.buffer id)

variable {k : CompiledKernel} {inv : Invocation} {size : LaunchSize} {limit : Nat}

namespace Sorted

variable {n : Nat} {scalars : Array UInt32} {ids : Array Nat}

theorem push_scalar (h : k.Sorted n scalars ids) (hn : n < k.entry.scalarCount) {a : Arg}
    {w : UInt32} (ha : (k.args[n]?).join = some a) (hw : a.scalarBits? = some w) :
    k.Sorted (n + 1) (scalars.push w) ids := by
  have hsize := h.scalars_size
  have hids := h.ids_size
  refine ⟨by rw [Array.size_push]; omega, by omega, fun i v hv => ?_, h.buffer⟩
  rw [Array.getElem?_push] at hv
  split at hv
  · rename_i hi
    cases hv
    exact ⟨a, (show i = n by omega) ▸ ha, hw⟩
  · exact h.scalar i v hv

theorem push_buffer (h : k.Sorted n scalars ids) (hn : ¬ n < k.entry.scalarCount) {id : Nat}
    (ha : (k.args[n]?).join = some (.buffer id)) : k.Sorted (n + 1) scalars (ids.push id) := by
  have hsize := h.scalars_size
  have hids := h.ids_size
  refine ⟨by omega, by rw [Array.size_push]; omega, h.scalar, fun i other hother => ?_⟩
  rw [Array.getElem?_push] at hother
  split at hother
  · rename_i hi
    cases hother
    rw [show k.entry.scalarCount + i = n by omega]
    exact ha
  · exact h.buffer i other hother

end Sorted

theorem sorted_of_gather {scalars : Array UInt32} {ids : Array Nat}
    (h : k.gather = .ok (scalars, ids)) : k.Sorted k.args.size scalars ids := by
  unfold gather at h
  -- The arguments are sorted one by one, the scalars first.
  generalize k.args.size = n at h ⊢
  induction n generalizing scalars ids with
  | zero =>
      cases h
      exact ⟨(Nat.zero_min _).symm, (Nat.zero_sub _).symm, nofun, nofun⟩
  | succ n ih =>
      rw [List.range_succ, List.foldlM_append] at h
      generalize hfirst : (List.foldlM _ _ (List.range n) : Except Error _) = first at h
      cases first with
      | error e => cases h
      | ok sorted =>
          have hsorted := ih hfirst
          simp only [Bind.bind, Except.bind, List.foldlM_cons, List.foldlM_nil] at h
          cases harg : (k.args[n]?).join with
          | none =>
              simp only [harg] at h
              cases h
          | some arg =>
              simp only [harg] at h
              by_cases hn : n < k.entry.scalarCount
              · simp only [if_pos hn] at h
                cases arg with
                | buffer _ => cases h
                | word _ | number _ =>
                    cases h
                    exact hsorted.push_scalar hn harg rfl
              · simp only [if_neg hn] at h
                cases arg with
                | buffer _ =>
                    cases h
                    exact hsorted.push_buffer hn harg
                | word _ | number _ => cases h

/-- What a launch is made of. -/
structure Given (k : CompiledKernel) (size : LaunchSize) (inv : Invocation) : Prop where
  entry : inv.entry = k.entry
  size : inv.size = size
  sorted : k.Sorted k.args.size inv.scalars inv.buffers

/-- An invocation that was put together has a size that the device accepts, and its
    arguments are those that were bound, sorted into scalars and buffers. -/
theorem given_of_invocation (h : k.invocation size limit = .ok inv) : k.Given size inv := by
  unfold invocation at h
  cases hvalid : size.validate k.entry.name limit with
  | error e =>
      rw [hvalid] at h
      cases h
  | ok _ =>
      -- The size passed its checks; what is left can only fail at an argument.
      cases hgather : k.gather with
      | error e =>
          rw [hvalid, hgather] at h
          cases h
      | ok sorted =>
          rw [hvalid, hgather] at h
          cases h
          exact ⟨rfl, rfl, sorted_of_gather hgather⟩

/-- A buffer that is bound is given, under the place it has among the buffers. -/
theorem Given.buffer_of_arg (h : k.Given size inv) {i id : Nat}
    (ha : (k.args[k.entry.scalarCount + i]?).join = some (.buffer id)) : inv.buffer i = id := by
  have hlt : i < inv.buffers.size := by
    rcases Array.getElem?_eq_some_iff.mp (Option.join_eq_some_iff.mp ha) with ⟨hlt, -⟩
    rw [h.sorted.ids_size]
    omega
  have hget := Array.getElem?_eq_getElem hlt
  cases ha.symm.trans (h.sorted.buffer i _ hget)
  rw [Invocation.buffer, hget, Option.getD_some]

/-- A buffer that is given is bound. The two directions let the bodies speak of buffers and
    the wiring of arguments. -/
theorem Given.arg_of_buffer (h : k.Given size inv) {i : Nat}
    (hi : k.entry.scalarCount + i < k.args.size) :
    (k.args[k.entry.scalarCount + i]?).join = some (.buffer (inv.buffer i)) := by
  have hlt : i < inv.buffers.size := by
    rw [h.sorted.ids_size]
    omega
  have hget := Array.getElem?_eq_getElem hlt
  rw [h.sorted.buffer i _ hget, Invocation.buffer, hget, Option.getD_some]

end CompiledKernel

end BoundedSimplex
