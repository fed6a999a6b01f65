import BoundedSimplex.Kernel.Basic

/-!
# Kernel Bodies

What a kernel finds in the memory.

A kernel reads buffers and writes one of them, its output, which is detached
while it runs. So none of the buffers it reads may be the output, and
`Invocation.Finds` says that none is, together with what each of them holds.
Under that condition reading a buffer gives what it holds, and a body that
comes to an end replaces the words of the output and nothing else.

A kernel checks the sizes of its buffers before it reads them. Where all the
words up to some number can be read, the size is enough.

## Main definitions

* `Invocation.Finds`: What the buffers of a launch hold.

## Theorems

* `Invocation.Finds.withOutput_eq`: What a body leaves in the memory.
* `Invocation.Finds.input_eq`: Reading a buffer.
* `Invocation.Finds.read_eq`: Reading the bounds.
-/

namespace BoundedSimplex

namespace Words

/-- Words that can be read up to some number are at least as many. -/
theorem le_size {ws : Words} {n : Nat} (h : ∀ i < n, (ws[i]?).isSome = true) : n ≤ ws.size := by
  by_cases hn : n ≤ ws.size
  · exact hn
  · have hlast := h ws.size (by omega)
    rw [Array.getElem?_eq_none (Nat.le_refl _)] at hlast
    cases hlast

theorem isSome_of_number? {ws : Words} {i : Nat} {x : Binary32} (h : ws.number? i = some x) :
    (ws[i]?).isSome = true := by
  rw [number?, Option.map_eq_some_iff] at h
  rcases h with ⟨w, hw, -⟩
  rw [hw]
  rfl

/-- Numbers that can be read up to some number are at least as many. -/
theorem le_size_of_numbers {ws : Words} {n : Nat} {x : Nat → Binary32}
    (h : ∀ i < n, ws.number? i = some (x i)) : n ≤ ws.size :=
  le_size fun i hi => isSome_of_number? (h i hi)

/-- A word as an index. -/
def index? (ws : Words) (i : Nat) : Option Nat := (ws[i]?).map UInt32.toNat

theorem index?_eq_some {ws : Words} {i n : Nat} (h : ws.index? i = some n) :
    ∃ w, ws[i]? = some w ∧ w.toNat = n :=
  Option.map_eq_some_iff.mp h

theorem isSome_of_index? {ws : Words} {i n : Nat} (h : ws.index? i = some n) :
    (ws[i]?).isSome = true := by
  rcases index?_eq_some h with ⟨w, hw, -⟩
  rw [hw]
  rfl

end Words

/-- A buffer that is put back takes the place it had. -/
theorem Memory.store_release (m : Memory) (id : Nat) (ws : Words) :
    (m.release id).store id ws = m.store id ws := by
  rw [release, store, store, Array.setIfInBounds_setIfInBounds]

namespace Body

/-- The output after a part that comes to an end. -/
def run? (x : Body Unit) (out : Words) : Option Words :=
  match x out with
  | .ok _ out' => some out'
  | .error _ _ => none

theorem run?_eq_some {x : Body Unit} {out out' : Words} :
    x.run? out = some out' ↔ x out = .ok () out' := by
  unfold run?
  cases x out with
  | ok _ _ => simp only [Option.some.injEq, EStateM.Result.ok.injEq, true_and]
  | error _ _ => simp only [reduceCtorEq]

theorem bind_ok {α β : Type} {x : Body α} {f : α → Body β} {a : α} {out out' : Words}
    (h : x out = .ok a out') : (x >>= f) out = f a out' := by
  simp only [Bind.bind, EStateM.bind, h]

/-- What follows a look at the output. -/
theorem output_bind {α : Type} (f : Words → Body α) (out : Words) :
    (output >>= f) out = f out out :=
  rfl

theorem ofExcept_ok {α : Type} (a : α) : ofExcept (.ok a) = pure a := rfl

theorem entry_some {α : Type} (a : α) : entry (some a) = pure a := rfl

/-- Work items that come to an end one after the other. -/
theorem forM_eq_ok {ι : Type} {item : ι → Body Unit} {l : List ι} {out out' : Words}
    (h : l.foldlM (fun out i => (item i).run? out) out = some out') :
    l.forM item out = .ok () out' := by
  induction l generalizing out with
  | nil =>
      cases h
      rfl
  | cons i rest ih =>
      rw [List.foldlM_cons] at h
      rcases Option.bind_eq_some_iff.mp h with ⟨middle, hfirst, hrest⟩
      exact (bind_ok (run?_eq_some.mp hfirst)).trans (ih hrest)

end Body

namespace Invocation

/-- The first `n` buffers of a launch hold the words `w`, and none of them is
    the output but the output itself. -/
structure Finds (inv : Invocation) (m : Memory) (n output : Nat) (w : Nat → Words) : Prop where
  words : ∀ i < n, m.words? (inv.buffer i) = some (w i)
  apart : ∀ i < n, i ≠ output → inv.buffer i ≠ inv.buffer output
  output_lt : output < n

theorem need_eq {inv : Invocation} {what : String} {size required : Nat} (h : required ≤ size) :
    inv.need what size required = pure () := by
  rw [need, if_neg (Nat.not_lt.mpr h)]
  rfl

namespace Finds

variable {inv : Invocation} {m : Memory} {n output : Nat} {w : Nat → Words}

/-- A body that comes to an end replaces the words of the output. Nothing else in the memory
    is within its reach. -/
theorem withOutput_eq (h : inv.Finds m n output w) {body : Memory → Body Unit} {ws : Words}
    (hbody : body (m.release (inv.buffer output)) (w output) = .ok () ws) :
    inv.withOutput output body m = (.ok (), m.store (inv.buffer output) ws) := by
  simp only [withOutput, h.words output h.output_lt, hbody, Memory.store_release]

/-- The other buffers can be read while the output is detached. This needs that none of them
    is the output, as that one is not there for the time being. -/
theorem input_eq (h : inv.Finds m n output w) {i : Nat} (hi : i < n) (hne : i ≠ output) :
    inv.input (m.release (inv.buffer output)) i = pure (w i) := by
  rw [input, Memory.words, Memory.words?_release, if_neg (Ne.symm (h.apart i hi hne)),
    h.words i hi]
  rfl

/-- So can three of them that hold bounds. -/
theorem read_eq (h : inv.Finds m n output w) {first : Nat} (hn : first + 2 < n)
    (hne : ∀ i, first ≤ i → i ≤ first + 2 → i ≠ output) :
    BoundView.read inv (m.release (inv.buffer output)) first
      = pure ⟨w first, w (first + 1), w (first + 2)⟩ := by
  rw [BoundView.read, h.input_eq (by omega) (hne _ (by omega) (by omega)),
    h.input_eq (by omega) (hne _ (by omega) (by omega)),
    h.input_eq hn (hne _ (by omega) (by omega))]
  rfl

end Finds

end Invocation

end BoundedSimplex
