import Mathlib.Data.List.Basic
import Mathlib.Data.List.Nodup
import Mathlib.Data.List.ProdSigma
import BoundedSimplex.Proofs.Cells
import BoundedSimplex.Kernel.Run

/-!
# Schedules of an Exchange

The work items of an exchange on a device, in any order.

A device promises nothing about the order in which the work items of a launch
run, and a kernel that changes a table in place is right only if no order can
be told from another. For the three parts of an exchange this is so because of
where they write. The inner part refers to a cell of the row that is solved, to
one of the column and to the cell it fills, and it fills no cell of that row or
column. The other two parts refer to the cell they fill. So every formula may be
taken on the table as it was before the launch.

An `ExchangePart` names the part, and an `ExchangeLaunch` has its scalars and its
geometry. `Leaves` says what words a part makes of others, and there is only one
answer. The kernel gives that answer, its rows give it in any order, and so do
its single work items.

## Main definitions

* `ExchangePart`, `ExchangeLaunch`: A part of an exchange and one launch of it.
* `ExchangePart.Fills`, `ExchangePart.formula?`: Which cells are filled, and with
  what.
* `ExchangePart.Leaves`: The words after a launch in terms of those before.
* `ExchangePart.rowTask`, `ExchangePart.item`: The work of one row, and of one
  work item.

## Theorems

* `ExchangePart.Leaves.unique`: There is one answer.
* `ExchangePart.forM_rowTask_leaves`, `ExchangePart.forM_item_leaves`: Rows, and
  work items, in any order.
* `ExchangePart.run_of_forM`: The kernel takes the rows from the first on.
* `ExchangePart.run_any_schedule`: A launch, and every order of its work.
-/

namespace BoundedSimplex

/-- The parts of an exchange, each of them a launch of its own. What a part reads for a cell
    is that cell and cells that no item of the part writes, and this is why its work items
    need no order among them. -/
inductive ExchangePart where
  /-- The cells away from the row and the column. -/
  | inner
  /-- The row, away from the column. -/
  | row
  /-- The column, away from the row. -/
  | column
deriving DecidableEq

/-- What the launch of a part is given, as the scalars of the kernel, the size of the grid
    and the buffer of the tableau. The three kernels take the same. -/
structure ExchangeLaunch where
  /-- The cell where row and column meet. -/
  alpha : Binary32
  /-- The row that is solved. -/
  row : UInt32
  /-- The column it is solved for. -/
  col : UInt32
  /-- The number of rows. -/
  numRows : UInt32
  /-- The number of columns. -/
  numCols : UInt32
  /-- The work items asked for. -/
  size : LaunchSize
  /-- The number of the buffer that holds the tableau. -/
  buffer : Nat

namespace ExchangeLaunch

variable (e : ExchangeLaunch)

/-- The row that is solved, as an index. -/
abbrev atRow : Nat := e.row.toNat

/-- The column it is solved for, as an index. -/
abbrev atCol : Nat := e.col.toNat

/-- The number of rows of the table. -/
abbrev height : Nat := e.numRows.toNat

/-- The number of columns of the table. -/
abbrev width : Nat := e.numCols.toNat

/-- The table has all its cells, and row and column are among its own. -/
structure Fits (ws : Words) : Prop where
  cells : e.height * e.width ≤ ws.size
  row_lt : e.atRow < e.height
  col_lt : e.atCol < e.width

end ExchangeLaunch

namespace ExchangePart

/-- The kernel of a part. -/
def entry : ExchangePart → Entry
  | .inner => .pivotUpdateInner
  | .row => .pivotUpdateRow
  | .column => .pivotUpdateColumn

/-- The scalars of a part. One row does not depend on how many there are. -/
def scalars : ExchangePart → ExchangeLaunch → Array UInt32
  | .row, e => #[e.alpha.bits, e.row, e.col, e.numCols]
  | _, e => #[e.alpha.bits, e.row, e.col, e.numRows, e.numCols]

/-- The launch of a part. -/
def invocation (p : ExchangePart) (e : ExchangeLaunch) : Invocation :=
  ⟨p.entry, p.scalars e, #[e.buffer], e.size⟩

/-- The cells a launch fills. It covers no more rows and columns than it has work
    items for. -/
def Fills : ExchangePart → ExchangeLaunch → Nat × Nat → Prop
  | .inner, e, k =>
      (k.1 < min e.size.spanY e.height ∧ k.1 ≠ e.atRow) ∧
        k.2 < min e.size.spanX e.width ∧ k.2 ≠ e.atCol
  | .row, e, k => k.1 = e.atRow ∧ k.2 < min e.size.spanX e.width ∧ k.2 ≠ e.atCol
  | .column, e, k => (k.1 < min e.size.spanX e.height ∧ k.1 ≠ e.atRow) ∧ k.2 = e.atCol

instance : (p : ExchangePart) → (e : ExchangeLaunch) → (k : Nat × Nat) → Decidable (p.Fills e k)
  | .inner, _, _ => inferInstanceAs (Decidable ((_ ∧ _) ∧ _ ∧ _))
  | .row, _, _ => inferInstanceAs (Decidable (_ ∧ _ ∧ _))
  | .column, _, _ => inferInstanceAs (Decidable ((_ ∧ _) ∧ _))

/-- What a cell is filled with, in terms of a table. Nothing if the table lacks a
    cell that is referred to. -/
def formula? : ExchangePart → ExchangeLaunch → (Nat × Nat → Option Binary32) → Nat × Nat →
    Option Binary32
  | .inner, e, table, k => do
      let own ← table k
      let across ← table (e.atRow, k.2)
      let down ← table (k.1, e.atCol)
      some (own - across * down / e.alpha)
  | .row, e, table, k => (table k).map fun own => -own / e.alpha
  | .column, e, table, k => (table k).map fun own => own / e.alpha

/-- What a part makes of the words of a table: the filled cells have the value of the
    formula on the table as it was, and all others are as before. This says nothing of an
    order, so it is the same for every schedule. -/
structure Leaves (p : ExchangePart) (e : ExchangeLaunch) (before after : Words) : Prop where
  size : after.size = before.size
  filled : ∀ k, p.Fills e k →
    ∃ x, p.formula? e (before.cell? e.width) k = some x ∧ after.cell? e.width k = some x
  kept : ∀ k, ¬ p.Fills e k → after.cell? e.width k = before.cell? e.width k

/-- The rows that have work in a launch. -/
def rows : ExchangePart → ExchangeLaunch → List Nat
  | .inner, e => List.range (min e.size.spanY e.height)
  | .row, e => [e.atRow]
  | .column, e => List.range (min e.size.spanX e.height)

/-- The work of one row. The inner part has a copy of the row that is solved, made
    before any cell changed. -/
def rowTask (p : ExchangePart) (e : ExchangeLaunch) (before : Words) (r : Nat) : Body Unit :=
  match p with
  | .inner => Kernel.eliminateRow e.atRow e.atCol e.width (min e.size.spanX e.width)
      (before.extract (e.atRow * e.width) ((e.atRow + 1) * e.width)) e.alpha r
  | .row => Body.write fun out => (List.range (min e.size.spanX e.width)).foldl
      (fun (out : Words) c => if c = e.atCol then out
        else out.modify (r * e.width + c) fun w => (-(⟨w⟩ : Binary32) / e.alpha).bits) out
  | .column => Kernel.divideCell e.atRow e.atCol e.width e.alpha r

/-- The cells that have a work item in a launch. -/
def items : ExchangePart → ExchangeLaunch → List (Nat × Nat)
  | .inner, e => List.range (min e.size.spanY e.height) ×ˢ
      List.range (min e.size.spanX e.width)
  | .row, e => (List.range (min e.size.spanX e.width)).map fun c => (e.atRow, c)
  | .column, e => (List.range (min e.size.spanX e.height)).map fun r => (r, e.atCol)

/-- One work item. It looks at the table when it runs, and fills its cell if that
    is to be filled. -/
def item (p : ExchangePart) (e : ExchangeLaunch) (k : Nat × Nat) : Body Unit :=
  if p.Fills e k then do
    let new ← Body.entry (p.formula? e ((← Body.output).cell? e.width) k)
    Body.write fun out => out.setIfInBounds (k.1 * e.width + k.2) new.bits
  else pure ()

variable {p : ExchangePart} {e : ExchangeLaunch} {ws : Words}

/-- There is one answer. Each cell is either filled or kept, and both determine it. -/
theorem Leaves.unique {after after' : Words} (hwidth : 0 < e.width) (h : p.Leaves e ws after)
    (h' : p.Leaves e ws after') : after = after' := by
  refine Words.ext_cell? hwidth fun k => ?_
  by_cases hk : p.Fills e k
  · rcases h.filled k hk with ⟨x, hx, hafter⟩
    rcases h'.filled k hk with ⟨x', hx', hafter'⟩
    rw [hafter, hafter', ← hx, ← hx']
  · rw [h.kept k hk, h'.kept k hk]

/-- No work item looks at a cell that another one fills: the formula of a cell is
    the same on tables with the same cells there and where nothing is filled. -/
theorem formula?_congr {table table' : Nat × Nat → Option Binary32} {k : Nat × Nat}
    (hk : p.Fills e k) (hown : table k = table' k)
    (hfree : ∀ k', ¬ p.Fills e k' → table k' = table' k') :
    p.formula? e table k = p.formula? e table' k := by
  cases p with
  | inner =>
      have hacross := hfree (e.atRow, k.2) fun h => h.1.2 rfl
      have hdown := hfree (k.1, e.atCol) fun h => h.2.2 rfl
      simp only [formula?, hown, hacross, hdown]
  | row | column => simp only [formula?, hown]

/-- On a table with a value in every cell, every formula has a value. -/
theorem formula?_isSome (p : ExchangePart) (e : ExchangeLaunch) (f : Nat → Nat → Binary32)
    (k : Nat × Nat) : ∃ x, p.formula? e (fun k => some (f k.1 k.2)) k = some x := by
  cases p <;> exact ⟨_, rfl⟩

theorem Fills.lt (hfits : e.Fits ws) {k : Nat × Nat} (h : p.Fills e k) :
    k.1 < e.height ∧ k.2 < e.width := by
  rcases k with ⟨r, c⟩
  cases p with
  | inner => exact ⟨(Nat.lt_min.mp h.1.1).2, (Nat.lt_min.mp h.2.1).2⟩
  | row =>
      rcases h with ⟨rfl, hc, -⟩
      exact ⟨hfits.row_lt, (Nat.lt_min.mp hc).2⟩
  | column =>
      rcases h with ⟨⟨hr, -⟩, rfl⟩
      exact ⟨(Nat.lt_min.mp hr).2, hfits.col_lt⟩

/-- A table that has all its cells has those that a formula refers to. -/
theorem formula?_of_cells {f : Nat → Nat → Binary32} (hcells : ws.Cells e.width e.height f)
    (hfits : e.Fits ws) {k : Nat × Nat} (hk : p.Fills e k) :
    p.formula? e (ws.cell? e.width) k = p.formula? e (fun k => some (f k.1 k.2)) k := by
  rcases k with ⟨r, c⟩
  have hlt := hk.lt hfits
  have hown := hcells r hlt.1 c hlt.2
  cases p with
  | inner =>
      simp only [formula?, hown, hcells _ hfits.row_lt c hlt.2, hcells r hlt.1 _ hfits.col_lt]
  | row | column => simp only [formula?, hown]

/-- What a part makes of a table, if every cell that is filled has the value of the
    formula on a table that says the same. -/
theorem Leaves.of_cells {f : Nat → Nat → Binary32} {after : Words}
    (hcells : ws.Cells e.width e.height f) (hfits : e.Fits ws) (hsize : after.size = ws.size)
    (hfilled : ∀ k, p.Fills e k →
      after.cell? e.width k = p.formula? e (fun k => some (f k.1 k.2)) k)
    (hkept : ∀ k, ¬ p.Fills e k → after.cell? e.width k = ws.cell? e.width k) :
    p.Leaves e ws after where
  size := hsize
  filled k hk := by
    rcases formula?_isSome p e f k with ⟨x, hx⟩
    exact ⟨x, (formula?_of_cells hcells hfits hk).trans hx, (hfilled k hk).trans hx⟩
  kept := hkept

/-- Rows in any order. The cells of a row are written by that row alone, and none of them is
    read by another one. -/
theorem forM_rowTask_leaves (hfits : e.Fits ws) {l : List Nat} (hl : l.Perm (p.rows e)) :
    ∃ after, l.forM (p.rowTask e ws) ws = .ok () after ∧ p.Leaves e ws after := by
  have hcells := Words.cells_of_le_size hfits.cells
  -- One case per part of the exchange. The solved row is a single task, the two others are one
  -- task for each row.
  cases p with
  | inner =>
      have hmem : ∀ r, r ∈ l ↔ r < min e.size.spanY e.height :=
        fun r => hl.mem_iff.trans List.mem_range
      rcases Kernel.forM_eliminateRow e.alpha (hl.nodup_iff.mpr List.nodup_range)
        (fun r hr => (Nat.lt_min.mp ((hmem r).mp hr)).2) hcells hfits.row_lt hfits.col_lt
        (Nat.min_le_right e.size.spanX e.width) with ⟨after, hrun, hsize, hcell⟩
      refine ⟨after, hrun, .of_cells hcells hfits hsize (fun k hk => ?_) fun k hk => ?_⟩
      · rw [hcell k, if_pos ⟨⟨(hmem _).mpr hk.1.1, hk.1.2⟩, hk.2⟩]
        rfl
      · rw [hcell k, if_neg fun h => hk ⟨⟨(hmem _).mp h.1.1, h.1.2⟩, h.2⟩]
  | row =>
      rw [List.perm_singleton.mp hl]
      have hrow := Kernel.foldl_negate_eq e.alpha e.atCol hcells hfits.row_lt
        (Nat.min_le_right e.size.spanX e.width)
      refine ⟨_, rfl, .of_cells hcells hfits hrow.1 (fun k hk => ?_) fun k hk => ?_⟩
      · refine (hrow.2 k).trans ((if_pos hk).trans ?_)
        rw [← hk.1]
        rfl
      · exact (hrow.2 k).trans (if_neg hk)
  | column =>
      have hmem : ∀ r, r ∈ l ↔ r < min e.size.spanX e.height :=
        fun r => hl.mem_iff.trans List.mem_range
      rcases Kernel.forM_divideCell e.alpha (hl.nodup_iff.mpr List.nodup_range)
        (fun r hr => (Nat.lt_min.mp ((hmem r).mp hr)).2) hcells hfits.col_lt with
        ⟨after, hrun, hsize, hcell⟩
      refine ⟨after, hrun, .of_cells hcells hfits hsize (fun k hk => ?_) fun k hk => ?_⟩
      · rw [hcell k, if_pos ⟨⟨(hmem _).mpr hk.1.1, hk.1.2⟩, hk.2⟩, ← hk.2]
        rfl
      · rw [hcell k, if_neg fun h => hk ⟨⟨(hmem _).mp h.1.1, h.1.2⟩, h.2⟩]

theorem Fills.mem_items {k : Nat × Nat} (h : p.Fills e k) : k ∈ p.items e := by
  cases p with
  | inner =>
      exact List.mem_product.mpr ⟨List.mem_range.mpr h.1.1, List.mem_range.mpr h.2.1⟩
  | row => exact List.mem_map.mpr ⟨k.2, List.mem_range.mpr h.2.1, Prod.ext h.1.symm rfl⟩
  | column => exact List.mem_map.mpr ⟨k.1, List.mem_range.mpr h.1.1, Prod.ext rfl h.2.symm⟩

theorem nodup_items (p : ExchangePart) (e : ExchangeLaunch) : (p.items e).Nodup := by
  cases p with
  | inner => exact List.nodup_range.product List.nodup_range
  | row => exact List.nodup_range.map fun _ _ h => (Prod.mk.inj h).2
  | column => exact List.nodup_range.map fun _ _ h => (Prod.mk.inj h).1

/-- A word that is put in a cell. -/
theorem item_eq {out : Words} {k : Nat × Nat} (hk : p.Fills e k) {x : Binary32}
    (hx : p.formula? e (out.cell? e.width) k = some x) :
    p.item e k out = .ok () (out.setIfInBounds (k.1 * e.width + k.2) x.bits) := by
  rw [item, if_pos hk, Body.output_bind, hx]
  rfl

/-- Work items in any order. Each of them has one cell, so this is the finest division there
    is. -/
theorem forM_item_leaves (hfits : e.Fits ws) {l : List (Nat × Nat)} (hl : l.Perm (p.items e)) :
    ∃ after, l.forM (p.item e) ws = .ok () after ∧ p.Leaves e ws after := by
  have hcells := Words.cells_of_le_size hfits.cells
  have hformula : ∀ k, p.Fills e k → ∃ x, p.formula? e (ws.cell? e.width) k = some x := by
    intro k hk
    rw [formula?_of_cells hcells hfits hk]
    exact formula?_isSome p e (fun r c => (ws.cell? e.width (r, c)).getD 0) k
  -- A sweep in which a round owns the cell it fills, and none if it fills none.
  rcases sweep (m := Option) (fun (out : Words) k => out.cell? e.width k)
    (fun out : Words => out.size = ws.size) (fun k k' => k' = k ∧ p.Fills e k)
    (fun k => (p.formula? e (ws.cell? e.width) k).getD 0)
    (fun out k => (p.item e k).run? out) l ws rfl
    ((hl.nodup_iff.mpr (nodup_items p e)).imp
      fun hij k hk hk' => hij (hk.1.symm.trans hk'.1))
    (fun k _ s hs hown hfree => by
      by_cases hk : p.Fills e k
      · rcases hformula k hk with ⟨x, hx⟩
        have hnow : p.formula? e (s.cell? e.width) k = some x :=
          (formula?_congr hk (hown k ⟨rfl, hk⟩)
            fun k' hk' => hfree k' fun _ _ hmine => hk' (hmine.1 ▸ hmine.2)).trans hx
        have hlt := hk.lt hfits
        have hold : s.cell? e.width k = some _ := (hown k ⟨rfl, hk⟩).trans (hcells _ hlt.1 _ hlt.2)
        have hcell := Words.cell?_modify s (fun _ => x) k.1 hlt.2
        rw [← Words.setIfInBounds_eq_modify] at hcell
        refine ⟨_, Body.run?_eq_some.mpr (item_eq hk hnow), (Array.size_setIfInBounds).trans hs,
          ?_, fun k' hk' => ?_⟩
        · rintro _ ⟨rfl, -⟩
          rw [hcell, if_pos rfl, hold, hx, Option.map_some, Option.getD_some]
        · rw [hcell, if_neg fun h => hk' ⟨h, hk⟩]
      · refine ⟨s, Body.run?_eq_some.mpr ?_, hs, fun k' hk' => absurd hk'.2 hk, fun _ _ => rfl⟩
        rw [item, if_neg hk]
        rfl) with ⟨after, hrun, hsize, hset, hkept⟩
  refine ⟨after, Body.forM_eq_ok hrun, hsize, fun k hk => ?_, fun k hk => ?_⟩
  · rcases hformula k hk with ⟨x, hx⟩
    refine ⟨x, hx, (hset k ⟨k, hl.mem_iff.mpr hk.mem_items, rfl, hk⟩).trans ?_⟩
    rw [hx, Option.getD_some]
  · exact hkept k fun k' _ hmine => hk (hmine.1 ▸ hmine.2)

/-- The kernel takes the rows from the first on. This is the order in which the host device
    runs them. -/
theorem run_of_forM (hfits : e.Fits ws) {m : Memory} (hws : m.words? e.buffer = some ws)
    {after : Words} (hrun : (p.rows e).forM (p.rowTask e ws) ws = .ok () after) :
    (p.invocation e).run m = (.ok (), m.store e.buffer after) := by
  -- The words of the tableau are the only buffer of these kernels, and also what they write.
  have hfinds : (p.invocation e).Finds m 1 0 fun _ => ws := by
    refine ⟨fun i hi => ?_, fun i hi hne => absurd (Nat.lt_one_iff.mp hi) hne, Nat.one_pos⟩
    rw [Nat.lt_one_iff.mp hi]
    exact hws
  have hend : (e.atRow + 1) * e.width ≤ ws.size :=
    Nat.le_trans (Nat.mul_le_mul_right _ hfits.row_lt) hfits.cells
  -- The checks differ between the kernels; that the exchange fits makes each of them pass.
  cases p with
  | inner =>
      have hwidth : (inner.invocation e).nat 4 ≠ 0 :=
        Nat.ne_of_gt (Nat.zero_lt_of_lt hfits.col_lt)
      have hrow : ¬ ws.size < ((inner.invocation e).nat 1 + 1) * (inner.invocation e).nat 4 :=
        Nat.not_lt.mpr hend
      show Kernel.pivotUpdateInner _ m = _
      unfold Kernel.pivotUpdateInner
      rw [if_neg hwidth]
      refine hfinds.withOutput_eq ?_
      rw [Body.output_bind, Invocation.need_eq (by exact hfits.cells), pure_bind, if_neg hrow]
      exact hrun
  | row =>
      show Kernel.pivotUpdateRow _ m = _
      unfold Kernel.pivotUpdateRow
      refine hfinds.withOutput_eq ?_
      rw [Body.output_bind, Invocation.need_eq (by exact hend), pure_bind]
      exact hrun
  | column =>
      show Kernel.pivotUpdateColumn _ m = _
      unfold Kernel.pivotUpdateColumn
      refine hfinds.withOutput_eq ?_
      rw [Body.output_bind, Invocation.need_eq (by exact hfits.cells), pure_bind]
      exact hrun

/-- A launch fills the cells of its part that it covers, each with its formula on the table
    before the launch, and leaves every other word. Rows in any order leave the same words,
    and so do single work items. A device that runs them at once is covered by this as far
    as it runs each of them as a whole. -/
theorem run_any_schedule (p : ExchangePart) (e : ExchangeLaunch) {m : Memory} {ws : Words}
    (hws : m.words? e.buffer = some ws) (hfits : e.Fits ws) :
    ∃ after, (p.invocation e).run m = (.ok (), m.store e.buffer after) ∧ p.Leaves e ws after ∧
      (∀ l : List Nat, l.Perm (p.rows e) → l.forM (p.rowTask e ws) ws = .ok () after) ∧
      ∀ l : List (Nat × Nat), l.Perm (p.items e) → l.forM (p.item e) ws = .ok () after := by
  have hwidth : 0 < e.width := Nat.zero_lt_of_lt hfits.col_lt
  rcases forM_rowTask_leaves hfits (List.Perm.refl (p.rows e)) with ⟨after, hserial, hleaves⟩
  refine ⟨after, run_of_forM hfits hws hserial, hleaves, fun l hl => ?_, fun l hl => ?_⟩
  · rcases forM_rowTask_leaves hfits hl with ⟨after', hrun, hleaves'⟩
    rw [hrun, hleaves.unique hwidth hleaves']
  · rcases forM_item_leaves hfits hl with ⟨after', hrun, hleaves'⟩
    rw [hrun, hleaves.unique hwidth hleaves']

/-- Row 1 is solved for column 1, in a launch that covers two of three columns. -/
def narrow : ExchangeLaunch :=
  ⟨⟨0x40000000⟩, 1, 1, 3, 3, .planar 2 3 1, 1⟩

/-- The rows 1, 2, 3 and 4, 2, 6 and 7, 8, 9. -/
def smallTable : Words :=
  #[0x3f800000, 0x40000000, 0x40400000, 0x40800000, 0x40000000, 0x40c00000,
    0x40e00000, 0x41000000, 0x41100000]

/-- The first column loses its share of the row, from 1 to -3 and from 7 to -9. The
    last one is not covered. The rows from the last on, and the work items from the
    last on, leave the same words. -/
theorem run_any_schedule_narrow :
    narrow.Fits smallTable ∧ ∃ after : Words,
      (inner.invocation narrow).run ⟨#[none, some smallTable]⟩
        = (.ok (), ⟨#[none, some after]⟩) ∧
      after.toList = [0xc0400000, 0x40000000, 0x40400000, 0x40800000, 0x40000000, 0x40c00000,
        0xc1100000, 0x41000000, 0x41100000] ∧
      [2, 0, 1].forM (inner.rowTask narrow smallTable) smallTable = .ok () after ∧
      (inner.items narrow).reverse.forM (inner.item narrow) smallTable = .ok () after := by
  have hfits : narrow.Fits smallTable := ⟨by decide, by decide, by decide⟩
  rcases run_any_schedule inner narrow (m := ⟨#[none, some smallTable]⟩) rfl hfits with
    ⟨after, hrun, -, hrows, hitems⟩
  refine ⟨hfits, after, hrun, ?_, hrows [2, 0, 1] (by decide), hitems _ (List.reverse_perm _)⟩
  -- The words are evaluated for one schedule, and the theorem says that the others leave them
  -- too.
  have hwords : (((inner.items narrow).reverse.forM (inner.item narrow)).run? smallTable).map
      Array.toList = some [0xc0400000, 0x40000000, 0x40400000, 0x40800000, 0x40000000,
        0x40c00000, 0xc1100000, 0x41000000, 0x41100000] := by decide +kernel
  rw [Body.run?_eq_some.mpr (hitems _ (List.reverse_perm _))] at hwords
  exact Option.some.inj hwords

end ExchangePart

end BoundedSimplex
