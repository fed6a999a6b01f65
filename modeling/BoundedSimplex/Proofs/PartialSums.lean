import BoundedSimplex.Proofs.SumTree
import Mathlib.Data.List.Nodup

/-!
# Which Sums a Launch Leaves

One slot for each workgroup, and what is added in it.

A launch has as many workgroups as its grid fills, whatever the number of items
is. So the last workgroup with an item may have some only, and those behind it
have none. Each of them takes the shared array as the one before has left it. In
slot `g` there is in the end the sum along one tree, which depends on `g`, on the
width and on the number of items alone. All its branches have the same length.
Its leaves are the items of the workgroup, each of them once, and zero elsewhere.

## Main definitions

* `SumTree.Full`: A tree whose branches all have the same length.
* `SumTree.zeros`: How often zero stands for an item.

## Theorems

* `SumTree.Full.leaves`: The number of leaves.
* `SumTree.full_group`, `SumTree.items_group_item`: The tree of a workgroup.
* `Kernel.partialSums_by_trees`: What a launch leaves in its output.
-/

namespace BoundedSimplex

namespace SumTree

/-- All branches of the tree have the same length, so every item goes through the same
    number of additions. -/
inductive Full : Nat → SumTree → Prop where
  | item (i : Nat) : Full 0 (.item i)
  | zero : Full 0 .zero
  | add {k : Nat} {left right : SumTree} : Full k left → Full k right →
      Full (k + 1) (.add left right)

/-- How often zero stands for an item. Zeros come from work items beyond the end, which have
    nothing to add. -/
def zeros : SumTree → Nat
  | item _ => 0
  | zero => 1
  | add left right => left.zeros + right.zeros

/-- A tree with branches of length `k` has `2 ^ k` leaves. -/
theorem Full.leaves {k : Nat} {t : SumTree} (h : Full k t) :
    t.items.length + t.zeros = 2 ^ k := by
  induction h with
  | item i => rfl
  | zero => rfl
  | @add k left right _ _ hl hr =>
      rw [items, zeros, List.length_append, Nat.pow_succ, Nat.mul_two]
      omega

/-- Every level of a sum is as deep for one item as for another. -/
theorem full_treeSum {j k : Nat} {t : Nat → SumTree} (h : ∀ i < 2 ^ k, Full j (t i)) :
    Full (j + k) (Kernel.treeSum k t) := by
  induction k generalizing j t with
  | zero => exact h 0 Nat.one_pos
  | succ k ih =>
      have hpow : 2 ^ (k + 1) = 2 ^ k + 2 ^ k := by rw [Nat.pow_succ, Nat.mul_two]
      rw [show j + (k + 1) = j + 1 + k by omega]
      exact ih fun i hi => .add (h i (by omega)) (h (i + 2 ^ k) (by omega))

variable {k count : Nat}

theorem full_group (g : Nat) : Full k (group (2 ^ k) count .item g) := by
  have hleaves : ∀ l < 2 ^ k,
      Full 0 (if g * 2 ^ k + l < count then .item (g * 2 ^ k + l) else zero) := by
    intro l _
    by_cases hl : g * 2 ^ k + l < count
    · rw [if_pos hl]
      exact .item _
    · rw [if_neg hl]
      exact .zero
  have hfull := full_treeSum hleaves
  rw [Nat.zero_add] at hfull
  rw [group, Nat.log2_two_pow]
  exact hfull

/-- Of some numbered places in a workgroup those have an item whose index is below the
    count. -/
theorem items_places (start : Nat) (ls : List Nat) :
    (ls.flatMap fun l => if start + l < count then (item (start + l)).items else [])
      = (ls.map (start + ·)).filter (· < count) := by
  induction ls with
  | nil => rfl
  | cons l rest ih =>
      rw [List.flatMap_cons, List.map_cons, List.filter_cons, ih]
      by_cases hl : start + l < count
      · simp only [hl, if_true, decide_true, List.singleton_append, items]
      · simp only [hl, if_false, decide_false, Bool.false_eq_true, List.nil_append]

/-- A workgroup has the items of its part of the grid, each of them once. Beyond the end of
    the items there are none, and zeros take their place. -/
theorem items_group_item (g : Nat) :
    (group (2 ^ k) count .item g).items.Perm
      ((List.range count).filter fun i => g * 2 ^ k ≤ i ∧ i < (g + 1) * 2 ^ k) := by
  refine (items_group (floorPow2_two_pow k) g).trans ?_
  rw [items_places]
  refine (List.perm_ext_iff_of_nodup ?_ (List.nodup_range.filter _)).mpr fun i => ?_
  · exact (List.nodup_range.map fun a b hab => Nat.add_left_cancel hab).filter _
  · simp only [List.mem_filter, List.mem_map, List.mem_range, decide_eq_true_eq, Nat.succ_mul]
    constructor
    · rintro ⟨⟨l, hl, rfl⟩, hi⟩
      exact ⟨hi, by omega, by omega⟩
    · rintro ⟨hi, hle, hlt⟩
      exact ⟨⟨i - g * 2 ^ k, by omega, by omega⟩, hi⟩

end SumTree

namespace Kernel

/-- In workgroups of `2 ^ k` items a launch leaves one sum in each of its slots and
    nothing else. The sum is taken along a full tree of the items in that part of the
    grid. What a workgroup is handed in the shared array makes no difference, and its
    rounds stay in the array and come to an end. -/
theorem partialSums_by_trees {inv : Invocation} {k : Nat} (hwidth : inv.size.group.x = 2 ^ k) :
    (∀ count g, (SumTree.group (2 ^ k) count .item g).Full k ∧
      (SumTree.group (2 ^ k) count .item g).items.Perm
        ((List.range count).filter fun i => g * 2 ^ k ≤ i ∧ i < (g + 1) * 2 ^ k)) ∧
    (∀ (count : Nat) (load : Nat → Body Binary32) (item : Nat → Binary32) (out : Words),
      (∀ i, i < inv.size.groups.x * 2 ^ k → i < count → load i = pure (item i)) →
      inv.size.groups.x ≤ out.size →
      ∃ ws : Words, partialSums inv count load out = .ok () ws ∧ ws.size = out.size ∧
        (∀ g < inv.size.groups.x,
          ws[g]? = some ((SumTree.group (2 ^ k) count .item g).eval item).bits) ∧
        ∀ g, inv.size.groups.x ≤ g → ws[g]? = out[g]?) ∧
    (∀ (count : Nat) (load : Nat → Body Binary32) (item : Nat → Binary32) (g : Nat),
      (∀ i, i < g * 2 ^ k + 2 ^ k → i < count → load i = pure (item i)) →
      ∀ shared shared' : Array Binary32, shared.size = 2 ^ k → shared'.size = 2 ^ k →
        writeGroup (2 ^ k) count load shared g = writeGroup (2 ^ k) count load shared' g) ∧
    ∀ shared : Array Binary32, shared.size = 2 ^ k → ∃ rest : Array Binary32,
      treeReduce shared = .ok (treeSum k fun i => (shared[i]?).getD 0, rest) ∧
        rest.size = 2 ^ k := by
  have hpos : 0 < inv.size.group.x := by
    rw [hwidth]
    exact Nat.two_pow_pos k
  have hfloor := floorPow2_two_pow k
  refine ⟨fun count g => ⟨SumTree.full_group g, SumTree.items_group_item g⟩, ?_, ?_, ?_⟩
  · intro count load item out hload hout
    rw [← hwidth] at hload
    rcases partialSums_eq hpos (by rw [hwidth]; exact hfloor) hout hload with
      ⟨ws, hrun, hsize, hws⟩
    refine ⟨ws, hrun, hsize, fun g hg => ?_, fun g hg => ?_⟩
    · rw [hws, if_pos hg, hwidth, SumTree.eval_group]
      rfl
    · rw [hws, if_neg (Nat.not_lt.mpr hg)]
  · intro count load item g hload shared shared' hshared hshared'
    rcases writeGroup_eq hfloor g hload with ⟨rest, -, hwrite⟩
    funext out
    rw [hwrite shared hshared, hwrite shared' hshared']
  · intro shared hshared
    refine treeReduce_eq hshared fun i hi => ?_
    rw [Array.getElem?_eq_getElem (by omega), Option.getD_some]

/-- The numbers from one to six. -/
def oneToSix : Words :=
  #[0x3f800000, 0x40000000, 0x40400000, 0x40800000, 0x40a00000, 0x40c00000]

/-- Six items in workgroups of four. The second workgroup has two of them and the third
    has none; the output has one slot more. -/
theorem partialSums_by_trees_six :
    (LaunchSize.linear 12 4).group.x = 2 ^ 2 ∧ ∃ ws : Words,
      partialSums ⟨.reducePartialSums, #[6], #[1, 2], .linear 12 4⟩ 6
        (fun i => Body.entry (oneToSix.number? i)) #[7, 7, 7, 7] = .ok () ws ∧
      ws[0]? = some 0x41200000 ∧ ws[1]? = some 0x41300000 ∧ ws[2]? = some 0 ∧
      ws[3]? = some 7 := by
  have hload : ∀ i, i < 12 → i < 6 → Body.entry (oneToSix.number? i)
      = pure ((oneToSix.number? i).getD 0) := by
    intro i _ hi
    rw [Words.number?, Array.getElem?_eq_getElem hi]
    rfl
  rcases (@partialSums_by_trees ⟨.reducePartialSums, #[6], #[1, 2], .linear 12 4⟩ 2 rfl).2.1 6 _ _
    #[7, 7, 7, 7] hload (by decide) with ⟨ws, hrun, -, hsum, hkept⟩
  refine ⟨rfl, ws, hrun, (hsum 0 (by decide)).trans ?_, (hsum 1 (by decide)).trans ?_,
    (hsum 2 (by decide)).trans ?_, hkept 3 (by decide)⟩
  all_goals decide +kernel

end Kernel

end BoundedSimplex
