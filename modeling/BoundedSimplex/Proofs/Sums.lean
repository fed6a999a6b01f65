import BoundedSimplex.Proofs.Workgroup
import BoundedSimplex.Proofs.Board
import BoundedSimplex.Engine.Geometry
import Mathlib.Algebra.Group.Nat.Defs

/-!
# Sums by Workgroups

The sum of a row as the launches of a device take it.

A workgroup adds its items as a binary tree, `groupTotal`, and items beyond the
count are zero. A row longer than a workgroup takes several launches, and each
of them has as many items as the one before had workgroups. What comes out in
the end is a sum of sums of sums, `groupedSum`. It depends on the width of a
workgroup and on nothing else about the device; it is the `Summation` that an
engine on a device takes of a row, as `leftSum` is the one of the tables.

Whatever is in the buffers of partial sums beyond the sums of the launch
before is never read.

## Main definitions

* `groupTotal`: What one workgroup makes of its items.
* `foldLevels`: The sums after each of several launches.
* `groupedSum`: The sum of a row.

## Theorems

* `Kernel.writeGroup_eq`, `Kernel.writeGroups_eq`: One workgroup, and one after the
  other.
* `Kernel.updateAssignment_eq`, `Kernel.reducePartialSums_eq`,
  `Kernel.updateAssignmentComplete_eq`: The three launches.
* `foldPlan_cons`, `foldPlan_last_le`: The counts of the further launches.
-/

namespace BoundedSimplex

/-- What the workgroup of number `g` makes of its items, with zero in the place
    of items beyond the count. -/
def groupTotal {α : Type} [Scalar α] (width count : Nat) (item : Nat → α) (g : Nat) : α :=
  Kernel.treeSum width.log2 fun l => if g * width + l < count then item (g * width + l) else 0

/-- The sums after a launch for each of the counts. The first count goes with the launch
    that is made first. -/
def foldLevels {α : Type} [Scalar α] (width : Nat) : List Nat → (Nat → α) → Nat → α
  | [], sums => sums
  | n :: rest, sums => foldLevels width rest (groupTotal width n sums)

/-- The number of sums after a launch for each of the counts. -/
def lastCount (width : Nat) (plan : List Nat) (groups : Nat) : Nat :=
  plan.foldl (fun _ n => ceilDiv n width) groups

/-- The sum of a row by workgroups of a width. The way from the columns to one number is: a
    launch over the columns, the launches of the plan, and one workgroup for the rest. -/
def groupedSum {α : Type} [Scalar α] (width : Nat) : Summation α := fun n item =>
  let groups := ceilDiv n width
  let plan := (foldPlan width groups groups).getD []
  groupTotal width (lastCount width plan groups)
    (foldLevels width plan (groupTotal width n item)) 0

/-! ### The geometry -/

theorem ceilDiv_eq {n width : Nat} (hw : 0 < width) :
    ceilDiv n width = (n + (width - 1)) / width := by
  rw [ceilDiv, Nat.max_eq_left hw]

/-- Groups cover all items. -/
theorem lt_ceilDiv_iff {n width g : Nat} (hw : 0 < width) :
    g < ceilDiv n width ↔ g * width < n := by
  rw [ceilDiv_eq hw, Nat.lt_iff_add_one_le, Nat.le_div_iff_mul_le hw, Nat.succ_mul]
  omega

theorem le_ceilDiv_mul {n width : Nat} (hw : 0 < width) : n ≤ ceilDiv n width * width := by
  by_cases h : n ≤ ceilDiv n width * width
  · exact h
  · have hlt := (lt_ceilDiv_iff hw).mpr (Nat.lt_of_not_le h)
    exact absurd hlt (Nat.lt_irrefl _)

theorem ceilDiv_mul_le_of_le {m n width : Nat} (h : m ≤ n) :
    ceilDiv m width * width ≤ ceilDiv n width * width := by
  refine Nat.mul_le_mul_right width (Nat.div_le_div_right ?_)
  omega

/-- Groups of one item are as many as the items. -/
theorem ceilDiv_one (n : Nat) : ceilDiv n 1 = n := by
  rw [ceilDiv_eq Nat.one_pos, Nat.sub_self, Nat.add_zero, Nat.div_one]

theorem ceilDiv_mul {k width : Nat} (hw : 0 < width) : ceilDiv (k * width) width = k := by
  refine Nat.le_antisymm ?_ ?_
  · by_cases h : ceilDiv (k * width) width ≤ k
    · exact h
    · have hlt := (lt_ceilDiv_iff hw).mp (Nat.lt_of_not_le h)
      exact absurd hlt (Nat.lt_irrefl _)
  · exact Nat.le_of_mul_le_mul_right (le_ceilDiv_mul hw) hw

theorem ceilDiv_pos {n width : Nat} (hw : 0 < width) (hn : 0 < n) : 0 < ceilDiv n width := by
  rw [lt_ceilDiv_iff hw, Nat.zero_mul]
  exact hn

/-- The first count of a plan is the one it is made for, and the rest is a plan for what one
    launch leaves. -/
theorem foldPlan_cons {width steps count n : Nat} {rest : List Nat}
    (h : foldPlan width steps count = some (n :: rest)) :
    n = count ∧ ∃ steps', foldPlan width steps' (ceilDiv count width) = some rest := by
  cases steps with
  | zero =>
      unfold foldPlan at h
      split at h <;> cases h
  | succ steps =>
      unfold foldPlan at h
      split at h
      · cases h
      · rcases Option.map_eq_some_iff.mp h with ⟨rest', hrest, heq⟩
        cases heq
        exact ⟨rfl, steps, hrest⟩

/-- After the last launch of a plan the sums fit a workgroup. This is the condition under
    which the loop ends. -/
theorem foldPlan_last_le {width : Nat} {plan : List Nat} :
    ∀ {steps count : Nat}, foldPlan width steps count = some plan →
      lastCount width plan count ≤ width := by
  induction plan with
  | nil =>
      intro steps count h
      cases steps with
      | zero =>
          unfold foldPlan at h
          split at h
          · assumption
          · cases h
      | succ steps =>
          unfold foldPlan at h
          split at h
          · assumption
          · rcases Option.map_eq_some_iff.mp h with ⟨_, _, heq⟩
            cases heq
  | cons n rest ih =>
      intro steps count h
      rcases foldPlan_cons h with ⟨rfl, steps', hrest⟩
      exact ih hrest

theorem ceilDiv_lt {n width : Nat} (hw : 2 ≤ width) (hn : 2 ≤ n) : ceilDiv n width < n := by
  have hpos : 0 < width := by omega
  by_cases h : ceilDiv n width < n
  · exact h
  · have hlt := (lt_ceilDiv_iff hpos).mp (show n - 1 < ceilDiv n width by omega)
    have hle := Nat.mul_le_mul_left (n - 1) hw
    omega

/-- Workgroups of two items or more make fewer sums of many, so that there is a
    plan. -/
theorem foldPlan_isSome {width : Nat} (hw : 2 ≤ width) (steps : Nat) :
    ∀ {count : Nat}, count ≤ steps → (foldPlan width steps count).isSome = true := by
  induction steps with
  | zero =>
      intro count h
      have hle : count ≤ width := by omega
      rw [foldPlan, if_pos hle]
      rfl
  | succ steps ih =>
      intro count h
      by_cases hle : count ≤ width
      · rw [foldPlan, if_pos hle]
        rfl
      -- A count above the width falls with each launch, so as many steps as the count are enough.
      · have hlt := ceilDiv_lt hw (n := count) (by omega)
        rw [foldPlan, if_neg hle, Option.isSome_map]
        exact ih (by omega)

/-! ### Workgroups -/

namespace Kernel

theorem groupTotal_congr {α : Type} [Scalar α] {width n g : Nat} {x y : Nat → α}
    (h : ∀ i < n, x i = y i) : groupTotal width n x g = groupTotal width n y g := by
  refine treeSum_congr fun l _ => ?_
  by_cases hl : g * width + l < n
  · rw [if_pos hl, if_pos hl, h _ hl]
  · rw [if_neg hl, if_neg hl]

section Groups

variable {inv : Invocation} {width count : Nat} {load : Nat → Body Binary32}
  {item : Nat → Binary32} {shared : Array Binary32}

/-- The sum of the items of a workgroup. -/
theorem treeReduce_items (hwidth : floorPow2 width = width) (count : Nat) (item : Nat → Binary32)
    (g : Nat) :
    ∃ rest : Array Binary32, rest.size = width ∧
      treeReduce ((Array.range width).map fun l =>
        if g * width + l < count then item (g * width + l) else 0)
        = .ok (groupTotal width count item g, rest) := by
  have hpow := two_pow_log2 hwidth
  have hsize : ((Array.range width).map fun l =>
      if g * width + l < count then item (g * width + l) else 0).size = 2 ^ width.log2 := by
    rw [Array.size_map, Array.size_range, hpow]
  rcases treeReduce_eq hsize fun l hl => by
    rw [Array.getElem?_map, Array.getElem?_range, if_pos (by omega), Option.map_some] with
    ⟨rest, hrun, hsize⟩
  exact ⟨rest, hsize.trans hpow, hrun⟩

/-- A workgroup writes its sum into its slot. What it finds in the shared array makes
    no difference, not even to what it leaves there. -/
theorem writeGroup_eq (hwidth : floorPow2 width = width) (g : Nat)
    (hload : ∀ i, i < g * width + width → i < count → load i = pure (item i)) :
    ∃ rest : Array Binary32, rest.size = width ∧ ∀ shared : Array Binary32, shared.size = width →
      ∀ out, writeGroup width count load shared g out
        = .ok rest (out.setIfInBounds g (groupTotal width count item g).bits) := by
  rcases treeReduce_items hwidth count item g with ⟨rest, hsize, hsum⟩
  refine ⟨rest, hsize, fun shared hshared out => ?_⟩
  rw [writeGroup, fillShared_eq (by rw [hshared]; exact hload), pure_bind, hshared, hsum]
  rfl

/-- One workgroup after the other writes into its own slot. The shared array is handed on,
    with whatever the last workgroup has left in it. -/
theorem writeGroups_eq {out : Words} (hwidth : floorPow2 width = width)
    (hshared : shared.size = width) (groups : Nat)
    (hload : ∀ i, i < groups * width → i < count → load i = pure (item i))
    (hout : groups ≤ out.size) :
    ∃ (rest : Array Binary32) (ws : Words),
      (List.range groups).foldlM (writeGroup width count load) shared out = .ok rest ws ∧
      rest.size = width ∧ ws.size = out.size ∧
      ∀ g, ws[g]? = if g < groups then some (groupTotal width count item g).bits else out[g]? := by
  -- Induction on the groups. What one of them leaves in the shared memory is overwritten by the
  -- next before it is read.
  induction groups with
  | zero => exact ⟨shared, out, rfl, hshared, rfl, fun g => (if_neg (Nat.not_lt_zero g)).symm⟩
  | succ n ih =>
      rw [Nat.succ_mul] at hload
      rcases ih (fun i hi => hload i (by omega)) (by omega) with ⟨rest, ws, hrun, hrest, hsize, hws⟩
      rcases writeGroup_eq hwidth n hload with ⟨rest', hrest', hwrite⟩
      refine ⟨rest', ws.setIfInBounds n (groupTotal width count item n).bits, ?_, hrest',
        Array.size_setIfInBounds.trans hsize, fun g => ?_⟩
      · rw [List.range_succ, List.foldlM_append]
        refine (Body.bind_ok hrun).trans ?_
        rw [List.foldlM_cons]
        refine (Body.bind_ok (hwrite rest hrest ws)).trans ?_
        rfl
      · rw [Array.getElem?_setIfInBounds, hws]
        -- The slots before this one keep their sums, and those after it are still as they were.
        rcases Nat.lt_trichotomy g n with hlt | rfl | hgt
        · rw [if_neg (by omega), if_pos hlt, if_pos (by omega)]
        · rw [if_pos rfl, if_pos (by omega), if_pos (by omega)]
        · rw [if_neg (by omega), if_neg (by omega), if_neg (by omega)]

theorem reductionWidth_eq (hpos : 0 < inv.size.group.x)
    (hwidth : floorPow2 inv.size.group.x = inv.size.group.x) :
    reductionWidth inv = .ok inv.size.group.x :=
  if_pos ⟨Nat.ne_of_gt hpos, hwidth⟩

/-- One sum for each workgroup, from the start of the output on. -/
theorem partialSums_eq {out : Words} (hpos : 0 < inv.size.group.x)
    (hwidth : floorPow2 inv.size.group.x = inv.size.group.x)
    (hout : inv.size.groups.x ≤ out.size)
    (hload : ∀ i, i < inv.size.groups.x * inv.size.group.x → i < count →
      load i = pure (item i)) :
    ∃ ws : Words, partialSums inv count load out = .ok () ws ∧ ws.size = out.size ∧
      ∀ g, ws[g]? = if g < inv.size.groups.x then
        some (groupTotal inv.size.group.x count item g).bits else out[g]? := by
  have hshared : (Array.replicate inv.size.group.x (0 : Binary32)).size = inv.size.group.x :=
    Array.size_replicate
  rcases writeGroups_eq hwidth hshared _ hload hout with ⟨rest, ws, hrun, -, hsize, hws⟩
  refine ⟨ws, ?_, hsize, hws⟩
  rw [partialSums, reductionWidth_eq hpos hwidth, Body.ofExcept_ok, pure_bind, Body.output_bind,
    Invocation.need_eq hout, pure_bind]
  exact (Body.bind_ok hrun).trans rfl

/-- The sums, as numbers. -/
theorem partialSums_numbers {out : Words} (hpos : 0 < inv.size.group.x)
    (hwidth : floorPow2 inv.size.group.x = inv.size.group.x)
    (hout : inv.size.groups.x ≤ out.size) (hload : ∀ i < count, load i = pure (item i)) :
    ∃ ws : Words, partialSums inv count load out = .ok () ws ∧ ws.size = out.size ∧
      ∀ g, ws.number? g = if g < inv.size.groups.x then
        some (groupTotal inv.size.group.x count item g) else out.number? g := by
  rcases partialSums_eq hpos hwidth hout fun i _ hi => hload i hi with ⟨ws, hrun, hsize, hws⟩
  refine ⟨ws, hrun, hsize, fun g => ?_⟩
  rw [Words.number?, hws]
  split
  · rfl
  · rfl

end Groups

/-! ### The three launches -/

section Launches

variable {inv : Invocation} {m : Memory} {w : Nat → Words} {x : Nat → Binary32}

/-- The partial sums of a row against the values of the column variables. -/
theorem updateAssignment_eq (h : inv.Finds m 4 3 w) {numCols row width groups : Nat}
    (hnc : inv.nat 0 = numCols) (hr : inv.nat 1 = row) (hw : inv.size.group.x = width)
    (hg : inv.size.groups.x = groups) {var : Nat → Nat} {coeff : Nat → Binary32}
    (hpos : 0 < width) (hwidth : floorPow2 width = width)
    (hout : groups ≤ (w 3).size) (htableau : (row + 1) * numCols ≤ (w 0).size)
    (hvar : ∀ c < numCols, (w 2).index? c = some (var c))
    (hvalue : ∀ c < numCols, (w 1).number? (var c) = some (x c))
    (hcoeff : ∀ c < numCols, (w 0).number? (row * numCols + c) = some (coeff c)) :
    ∃ ws : Words, updateAssignment inv m = (.ok (), m.store (inv.buffer 3) ws) ∧
      ws.size = (w 3).size ∧ ∀ g, ws.number? g = if g < groups then
        some (groupTotal width numCols (fun c => x c * coeff c) g)
        else (w 3).number? g := by
  subst hnc hr hw hg
  -- An item multiplies a cell of the row with the value of the variable in its column.
  have hload : ∀ c < inv.nat 0, (do
      let var ← Body.entry (w 2)[c]?
      let value ← Body.entry ((w 1).number? var.toNat)
      let coeff ← Body.entry ((w 0).number? (inv.nat 1 * inv.nat 0 + c))
      pure (value * coeff)) = pure (x c * coeff c) := by
    intro c hc
    rcases Words.index?_eq_some (hvar c hc) with ⟨v, hv, hvNat⟩
    simp only [hv, hvNat, hvalue c hc, hcoeff c hc, Body.entry_some, pure_bind]
  rcases partialSums_numbers hpos hwidth hout hload with ⟨ws, hrun, hrest⟩
  refine ⟨ws, ?_, hrest⟩
  unfold updateAssignment
  refine h.withOutput_eq ?_
  rw [h.input_eq (by omega) (by omega), h.input_eq (by omega) (by omega),
    h.input_eq (by omega) (by omega)]
  simp only [pure_bind]
  rw [Invocation.need_eq htableau, pure_bind,
    Invocation.need_eq (Words.le_size fun c hc => Words.isSome_of_index? (hvar c hc)), pure_bind]
  exact hrun

/-- The partial sums of partial sums. -/
theorem reducePartialSums_eq (h : inv.Finds m 2 1 w) {count width groups : Nat}
    (hn : inv.nat 0 = count) (hw : inv.size.group.x = width) (hg : inv.size.groups.x = groups)
    (hpos : 0 < width) (hwidth : floorPow2 width = width)
    (hout : groups ≤ (w 1).size)
    (hsums : ∀ i < count, (w 0).number? i = some (x i)) :
    ∃ ws : Words, reducePartialSums inv m = (.ok (), m.store (inv.buffer 1) ws) ∧
      ws.size = (w 1).size ∧ ∀ g, ws.number? g = if g < groups then
        some (groupTotal width count x g) else (w 1).number? g := by
  subst hn hw hg
  have hload : ∀ i < inv.nat 0, Body.entry ((w 0).number? i) = pure (x i) := by
    intro i hi
    rw [hsums i hi, Body.entry_some]
  rcases partialSums_numbers hpos hwidth hout hload with ⟨ws, hrun, hrest⟩
  refine ⟨ws, ?_, hrest⟩
  unfold reducePartialSums
  refine h.withOutput_eq ?_
  rw [h.input_eq (by omega) (by omega), pure_bind,
    Invocation.need_eq (Words.le_size_of_numbers hsums), pure_bind]
  exact hrun

/-- The last sum, written as the value of a variable. -/
theorem updateAssignmentComplete_eq (h : inv.Finds m 2 1 w) {count var width : Nat}
    (hn : inv.nat 0 = count) (hv : inv.nat 1 = var) (hw : inv.size.group.x = width)
    (hpos : 0 < width) (hwidth : floorPow2 width = width) (hcount : count ≤ width)
    (hvar : var < (w 1).size) (hsums : ∀ i < count, (w 0).number? i = some (x i)) :
    updateAssignmentComplete inv m = (.ok (), m.store (inv.buffer 1) ((w 1).setIfInBounds
      var (groupTotal width count x 0).bits)) := by
  subst hn hv hw
  -- One group is enough here, and its first slot has the sum.
  have hload : ∀ i < inv.nat 0, Body.entry ((w 0).number? i) = pure (x i) := by
    intro i hi
    rw [hsums i hi, Body.entry_some]
  rcases treeReduce_items hwidth (inv.nat 0) x 0 with ⟨rest, -, hsum⟩
  simp only [Nat.zero_mul] at hsum
  simp only [updateAssignmentComplete, reductionWidth_eq hpos hwidth,
    if_neg (Nat.not_lt.mpr hcount)]
  refine h.withOutput_eq ?_
  rw [h.input_eq (by omega) (by omega), pure_bind,
    Invocation.need_eq (Words.le_size_of_numbers hsums), pure_bind, Body.output_bind,
    Invocation.need_eq hvar, pure_bind, fillShared_eq fun i _ hi => hload i hi, pure_bind,
    Array.size_replicate, hsum]
  rfl

end Launches

end Kernel

end BoundedSimplex
