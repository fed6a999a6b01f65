import BoundedSimplex.Proofs.Body
import BoundedSimplex.Proofs.Sweep
import BoundedSimplex.Kernel.Reduce
import Mathlib.Algebra.Group.Nat.Defs

/-!
# One Workgroup

How the items of a workgroup become their sum, in the array they share.

In a round every cell of the lower half takes in one cell of the upper half.
No other cell takes in that one, and the round changes no cell of the upper
half. So a round makes of the cells what a binary tree makes of its items in
one level, and after the last round the first cell is the sum along the whole
tree, `treeSum`. Every index that a round reads is in the array, provided that
the number of cells is a power of two. With another number a cell would be
left out.

The array is handed from one workgroup to the next and still holds what the
rounds have left there. A workgroup fills every cell before its first round.
So what it is handed makes no difference, apart from its size.

## Main definitions

* `Kernel.treeSum`: The sum of items as a binary tree takes it.

## Theorems

* `Kernel.addRound_eq`: One round.
* `Kernel.treeReduce_eq`: All rounds.
* `Kernel.fillShared_eq`: What is in the array before the first one.
-/

namespace BoundedSimplex

namespace Kernel

/-! ### The rounds -/

section Tree

variable {α : Type} [Add α] {shared : Array α} {cell : Nat → α}

/-- The sum of `2 ^ k` items: the upper half is added onto the lower half,
    item by item, and what remains is summed in the same way. -/
def treeSum : (k : Nat) → (Nat → α) → α
  | 0, item => item 0
  | k + 1, item => treeSum k fun i => item i + item (i + Nat.pow 2 k)

/-- A tree of height `k` has `2 ^ k` leaves. -/
theorem treeSum_congr {k : Nat} {f g : Nat → α} (h : ∀ i < 2 ^ k, f i = g i) :
    treeSum k f = treeSum k g := by
  induction k generalizing f g with
  | zero => exact h 0 Nat.one_pos
  | succ k ih =>
      refine ih fun i hi => ?_
      have hpow : 2 ^ (k + 1) = 2 ^ k + 2 ^ k := by rw [Nat.pow_succ, Nat.mul_two]
      show f i + f (i + 2 ^ k) = g i + g (i + 2 ^ k)
      rw [h i (by omega), h (i + 2 ^ k) (by omega)]

/-- A round of stride `n` adds each of `n` cells onto the one `n` below it. No cell is both
    read for another one and written in a round. -/
theorem addRound_eq {n : Nat} (hcell : ∀ i < n + n, shared[i]? = some (cell i)) :
    ∃ after : Array α, (List.range n).foldlM (addAcross n) shared = .ok after ∧
      after.size = shared.size ∧ ∀ i < n, after[i]? = some (cell i + cell (i + n)) := by
  -- Every cell below `n` is written by one step only, and no cell from `n` on is.
  rcases sweep (m := Except Stop) (fun (s : Array α) i => s[i]?) (·.size = shared.size)
    (fun i k => k = i) (fun i => cell i + cell (i + n)) (addAcross n) (List.range n) shared rfl
    (List.nodup_range.imp fun hij k hk hk' => hij (hk.symm.trans hk'))
    (fun i hi s hs hmine hfree => by
      have hlt := List.mem_range.mp hi
      have hlow : s[i]? = some (cell i) := (hmine i rfl).trans (hcell i (by omega))
      have hhigh : s[i + n]? = some (cell (i + n)) := by
        refine (hfree (i + n) fun j hj heq => ?_).trans (hcell _ (by omega))
        have := List.mem_range.mp hj
        omega
      have hsize : i < s.size := (Array.getElem?_eq_some_iff.mp hlow).1
      refine ⟨s.setIfInBounds i (cell i + cell (i + n)), ?_, Array.size_setIfInBounds.trans hs, ?_,
        fun k hk => ?_⟩
      · rw [addAcross, hlow, hhigh]
        rfl
      · rintro k rfl
        rw [Array.getElem?_setIfInBounds, if_pos rfl, if_pos hsize]
      · rw [Array.getElem?_setIfInBounds, if_neg (Ne.symm hk)]) with
    ⟨after, hrun, hsize, hset, -⟩
  exact ⟨after, hrun, hsize, fun i hi => hset i ⟨i, List.mem_range.mpr hi, rfl⟩⟩

/-- After the last round the first cell is the sum of all. -/
theorem foldRounds_eq {k : Nat} : ∀ {shared : Array α} {cell : Nat → α},
    (∀ i < 2 ^ k, shared[i]? = some (cell i)) →
      ∃ rest : Array α, foldRounds (2 ^ k / 2) shared = .ok rest ∧ rest.size = shared.size ∧
        rest[0]? = some (treeSum k cell) := by
  -- Induction on the rounds. One round adds the upper half to the lower, which leaves cells for a
  -- tree that is one level lower.
  induction k with
  | zero =>
      intro shared cell hcell
      refine ⟨shared, ?_, rfl, hcell 0 Nat.one_pos⟩
      rw [foldRounds, if_pos (by decide)]
  | succ k ih =>
      intro shared cell hcell
      have hhalf : 2 ^ (k + 1) / 2 = 2 ^ k := by
        rw [Nat.pow_succ, Nat.mul_div_cancel _ Nat.two_pos]
      have hpow : 2 ^ (k + 1) = 2 ^ k + 2 ^ k := by rw [Nat.pow_succ, Nat.mul_two]
      rcases addRound_eq (n := 2 ^ k) fun i hi => hcell i (hpow ▸ hi) with
        ⟨after, hround, hsize, hafter⟩
      rcases ih hafter with ⟨rest, hrest, hsize', hsum⟩
      refine ⟨rest, ?_, hsize'.trans hsize, hsum⟩
      rw [hhalf, foldRounds, if_neg (Nat.pos_iff_ne_zero.mp (Nat.two_pow_pos k)), hround]
      exact hrest

/-- So a workgroup of `2 ^ k` items comes to an end with their sum. The induction is on `k`,
    as each round halves the cells that still count. -/
theorem treeReduce_eq {k : Nat} (hsize : shared.size = 2 ^ k)
    (hcell : ∀ i < 2 ^ k, shared[i]? = some (cell i)) :
    ∃ rest : Array α, treeReduce shared = .ok (treeSum k cell, rest) ∧ rest.size = 2 ^ k := by
  rcases foldRounds_eq hcell with ⟨rest, hrun, hrest, hsum⟩
  refine ⟨rest, ?_, hrest.trans hsize⟩
  rw [treeReduce, hsize, hrun]
  show (unguarded rest[0]? >>= fun sum => Except.ok (sum, rest)) = _
  rw [hsum]
  rfl

end Tree

/-! ### The items -/

/-- A width that can be halved down to one item. -/
theorem two_pow_log2 {width : Nat} (h : floorPow2 width = width) : 2 ^ width.log2 = width := h

variable {count first : Nat} {load : Nat → Body Binary32} {item : Nat → Binary32}
  {shared : Array Binary32}

/-- Every cell is replaced, by an item or by zero, whatever was there. This is why what a
    workgroup is handed does not show in its sum. -/
theorem fillShared_eq (hload : ∀ i, i < first + shared.size → i < count →
    load i = pure (item i)) :
    fillShared first count load shared = pure ((Array.range shared.size).map fun l =>
      if first + l < count then item (first + l) else 0) := by
  have hitem : ∀ l < shared.size, groupItem count load (first + l)
      = pure (if first + l < count then item (first + l) else 0) := by
    intro l hl
    by_cases hlt : first + l < count
    · rw [groupItem, if_pos hlt, if_pos hlt, hload _ (by omega) hlt]
    · rw [groupItem, if_neg hlt, if_neg hlt]
  -- Each item writes the cell of its own index and reads nothing, so what was there does not
  -- matter.
  rcases sweep (m := Body) (fun (s : Array Binary32) l => s[l]?) (·.size = shared.size)
    (fun l k => k = l) (fun l => if first + l < count then item (first + l) else 0)
    (fun s l => do return s.setIfInBounds l (← groupItem count load (first + l)))
    (List.range shared.size) shared rfl
    (List.nodup_range.imp fun hij k hk hk' => hij (hk.symm.trans hk'))
    (fun l hl s hs _ _ => by
      have hlt := List.mem_range.mp hl
      refine ⟨_, by rw [hitem l hlt, pure_bind], Array.size_setIfInBounds.trans hs, ?_,
        fun k hk => ?_⟩
      · rintro k rfl
        rw [Array.getElem?_setIfInBounds, if_pos rfl, if_pos (by omega)]
      · rw [Array.getElem?_setIfInBounds, if_neg (Ne.symm hk)]) with
    ⟨filled, hrun, hsize, hset, -⟩
  rw [fillShared, hrun]
  refine congrArg pure (Array.ext_getElem? fun l => ?_)
  rw [Array.getElem?_map, Array.getElem?_range]
  by_cases hl : l < shared.size
  · rw [if_pos hl, hset l ⟨l, List.mem_range.mpr hl, rfl⟩, Option.map_some]
  · rw [if_neg hl, Array.getElem?_eq_none (by omega), Option.map_none]

end Kernel

end BoundedSimplex
