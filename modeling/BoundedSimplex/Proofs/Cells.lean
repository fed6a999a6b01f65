import BoundedSimplex.Proofs.Body
import BoundedSimplex.Proofs.Exchange
import BoundedSimplex.Kernel.Exchange

/-!
# The Cells on a Device

What the three parts of an exchange leave in the tableau of a device.

Each part is a loop over work items, and every work item fills cells of its
own, so that `sweep` applies to all three. The first part reads the row that is
solved once, before any cell changes, and the cell of the column in each row
when it comes to that row; no work item owns either of them. The other two
parts read nothing but the cell they fill.

A launch covers as many rows and columns as there are work items, and there
may be fewer of them than the tableau has. The statements say which cells are
filled for every span, and that all others are as before, whatever they hold.

## Main definitions

* `Words.cell?`: A cell by row and column.
* `Words.Cells`: The cells of some rows as a function.

## Theorems

* `Kernel.forM_eliminateRow`, `Kernel.forM_divideCell`: Rows and cells of a part,
  in any order.
* `Kernel.pivotUpdateInner_eq`: The cells away from the row and the column.
* `Kernel.pivotUpdateRow_eq`, `Kernel.pivotUpdateColumn_eq`: The row and the
  column.
-/

namespace BoundedSimplex

namespace Words

/-- A cell by row and column, in a table of `n` columns. There is nothing
    beyond the last column. -/
def cell? (ws : Words) (n : Nat) (k : Nat × Nat) : Option Binary32 :=
  if k.2 < n then ws.number? (k.1 * n + k.2) else none

/-- The cells of the first rows are the values of `f`. Words beyond them are not spoken of. -/
def Cells (ws : Words) (n rows : Nat) (f : Nat → Nat → Binary32) : Prop :=
  ∀ r < rows, ∀ c < n, ws.cell? n (r, c) = some (f r c)

variable {ws : Words} {n rows : Nat} {f : Nat → Nat → Binary32}

theorem cell?_eq_number? {r c : Nat} (hc : c < n) : ws.cell? n (r, c) = ws.number? (r * n + c) :=
  if_pos hc

/-- Every word is a cell of some row, so the cells tell all the words. -/
theorem ext_cell? {ws' : Words} (hn : 0 < n) (h : ∀ k, ws.cell? n k = ws'.cell? n k) :
    ws = ws' := by
  refine Array.ext_getElem? fun i => ?_
  have hi := h (i / n, i % n)
  rw [cell?_eq_number? (Nat.mod_lt i hn), cell?_eq_number? (Nat.mod_lt i hn), Nat.mul_comm,
    Nat.div_add_mod] at hi
  exact Option.map_injective (fun _ _ hx => congrArg Binary32.bits hx) hi

/-- Where there are words enough, every cell has a value. -/
theorem cells_of_le_size (h : rows * n ≤ ws.size) :
    ws.Cells n rows fun r c => (ws.cell? n (r, c)).getD 0 := by
  intro r hr c hc
  have hend : (r + 1) * n ≤ rows * n := Nat.mul_le_mul_right n hr
  rw [Nat.succ_mul] at hend
  have hcell : ws.cell? n (r, c) = some ⟨ws[r * n + c]⟩ := by
    rw [cell?_eq_number? hc, number?, Array.getElem?_eq_getElem (by omega), Option.map_some]
  show _ = some ((ws.cell? n (r, c)).getD 0)
  rw [hcell, Option.getD_some]

/-- There is a word for each of the cells. -/
theorem Cells.le_size (h : ws.Cells n rows f) : rows * n ≤ ws.size := by
  refine Words.le_size fun i hi => ?_
  have hn : 0 < n := by
    rcases Nat.eq_zero_or_pos n with rfl | hn
    · rw [Nat.mul_zero] at hi
      omega
    · exact hn
  have hr : i / n < rows := (Nat.div_lt_iff_lt_mul hn).mpr hi
  have hcell := h (i / n) hr (i % n) (Nat.mod_lt _ hn)
  rw [cell?_eq_number? (Nat.mod_lt _ hn), Nat.mul_comm, Nat.div_add_mod] at hcell
  exact isSome_of_number? hcell

/-- Cells of which some were replaced. -/
theorem Cells.of_ite (h : ws.Cells n rows f) {ws' : Words} {P : Nat → Nat → Prop}
    [∀ r c, Decidable (P r c)] {g : Nat → Nat → Binary32} (hcell : ∀ r < rows, ∀ c < n,
      ws'.cell? n (r, c) = if P r c then some (g r c) else ws.cell? n (r, c)) :
    ws'.Cells n rows fun r c => if P r c then g r c else f r c := by
  intro r hr c hc
  rw [hcell r hr c hc, h r hr c hc]
  show _ = some (if P r c then g r c else f r c)
  by_cases hP : P r c
  · rw [if_pos hP, if_pos hP]
  · rw [if_neg hP, if_neg hP]

/-- A cell that is replaced by a formula on what it holds. -/
theorem cell?_modify (ws : Words) (g : Binary32 → Binary32) (r : Nat) {c : Nat} (hc : c < n)
    (k : Nat × Nat) :
    cell? (ws.modify (r * n + c) fun w => (g ⟨w⟩).bits) n k
      = if k = (r, c) then (ws.cell? n k).map g else ws.cell? n k := by
  rcases k with ⟨r', c'⟩
  by_cases hc' : c' < n
  · rw [cell?_eq_number? hc', cell?_eq_number? hc', number?, number?, Array.getElem?_modify]
    -- Row-major positions of two cells differ when the cells do, as long as both columns are
    -- inside the row.
    by_cases hk : (r', c') = (r, c)
    · rcases Prod.mk.inj hk with ⟨rfl, rfl⟩
      rw [if_pos rfl, if_pos rfl, Option.map_map, Option.map_map]
      rfl
    · rw [if_neg hk, if_neg]
      intro heq
      rcases cellIndex_inj hc hc' heq with ⟨h₁, h₂⟩
      exact hk (Prod.ext h₁.symm h₂.symm)
  · have hk : (r', c') ≠ (r, c) := by
      intro hk
      rcases Prod.mk.inj hk with ⟨-, rfl⟩
      exact hc' hc
    rw [if_neg hk]
    simp only [cell?, if_neg hc']

theorem setIfInBounds_eq_modify (ws : Words) (i : Nat) (x : UInt32) :
    ws.setIfInBounds i x = ws.modify i fun _ => x := by
  refine Array.ext_getElem? fun j => ?_
  rw [Array.getElem?_setIfInBounds, Array.getElem?_modify]
  by_cases hij : i = j
  · rw [if_pos hij, if_pos hij]
    by_cases hi : i < ws.size
    · rw [if_pos hi, ← hij, Array.getElem?_eq_getElem hi, Option.map_some]
    · rw [if_neg hi, Array.getElem?_eq_none (by omega), Option.map_none]
  · rw [if_neg hij, if_neg hij]

end Words

namespace Kernel

open Words

variable {inv : Invocation} {m : Memory} {w : Nat → Words} {rows : Nat} {f : Nat → Nat → Binary32}

/-- One row of the first part. -/
theorem eliminateCells_eq {solved out : Words} {r n cols : Nat} (col : Nat) (gamma alpha : Binary32)
    {beta mine : Nat → Binary32} (hcols : cols ≤ n)
    (hbeta : ∀ c < n, solved.number? c = some (beta c))
    (hmine : ∀ c < n, out.cell? n (r, c) = some (mine c)) :
    (eliminateCells (r * n) cols col solved gamma alpha out).size = out.size ∧
      ∀ k, (eliminateCells (r * n) cols col solved gamma alpha out).cell? n k
        = if k.1 = r ∧ k.2 < cols ∧ k.2 ≠ col then some (mine k.2 - beta k.2 * gamma / alpha)
          else out.cell? n k := by
  -- A sweep over the columns. Each round reads and writes the cell it owns, and
  -- none but that.
  rcases sweep_foldl (fun (ws : Words) k => ws.cell? n k) (fun ws : Words => ws.size = out.size)
    (fun c k => k = (r, c) ∧ c ≠ col) (fun k => mine k.2 - beta k.2 * gamma / alpha)
    (fun (out : Words) c => if c = col then out else out.modify (r * n + c) fun w =>
      ((⟨w⟩ : Binary32) - (solved.number? c).getD 0 * gamma / alpha).bits)
    (List.range cols) out rfl
    (List.nodup_range.imp fun hij k h h' => hij (Prod.mk.inj (h.1.symm.trans h'.1)).2)
    (fun c hc s hs hown _ => by
      have hcn : c < n := Nat.lt_of_lt_of_le (List.mem_range.mp hc) hcols
      by_cases hcc : c = col
      · rw [if_pos hcc]
        exact ⟨hs, fun k hk => absurd hcc hk.2, fun _ _ => rfl⟩
      · rw [if_neg hcc]
        have hcell := cell?_modify s
          (fun x => x - (solved.number? c).getD 0 * gamma / alpha) r hcn
        refine ⟨by rw [Array.size_modify, hs], ?_, fun k hk => ?_⟩
        · rintro k ⟨rfl, -⟩
          rw [hcell, if_pos rfl, hown (r, c) ⟨rfl, hcc⟩, hmine c hcn, hbeta c hcn]
          rfl
        · rw [hcell, if_neg fun h => hk ⟨h, hcc⟩]) with ⟨hsize, hset, hkept⟩
  refine ⟨hsize, fun k => ?_⟩
  by_cases hk : k.1 = r ∧ k.2 < cols ∧ k.2 ≠ col
  · rw [if_pos hk]
    exact hset k ⟨k.2, List.mem_range.mpr hk.2.1, Prod.ext hk.1 rfl, hk.2.2⟩
  · rw [if_neg hk]
    refine hkept k ?_
    rintro c hc ⟨rfl, hcc⟩
    exact hk ⟨rfl, List.mem_range.mp hc, hcc⟩

/-- Rows of the first part, each of them once and in any order. A row reads itself, and the
    row and the column of the exchange, which this part does not write. -/
theorem forM_eliminateRow {out : Words} {row col n cols : Nat} (alpha : Binary32) {l : List Nat}
    (hnodup : l.Nodup) (hlt : ∀ r ∈ l, r < rows) (hcells : out.Cells n rows f) (hrow : row < rows)
    (hcol : col < n) (hcols : cols ≤ n) :
    ∃ ws : Words, l.forM (eliminateRow row col n cols
        (out.extract (row * n) ((row + 1) * n)) alpha) out = .ok () ws ∧
      ws.size = out.size ∧ ∀ k, ws.cell? n k
        = if (k.1 ∈ l ∧ k.1 ≠ row) ∧ k.2 < cols ∧ k.2 ≠ col then
            some (f k.1 k.2 - f row k.2 * f k.1 col / alpha)
          else out.cell? n k := by
  have hend : (row + 1) * n ≤ out.size :=
    Nat.le_trans (Nat.mul_le_mul_right _ hrow) hcells.le_size
  -- The row that is solved, as it is read before the first cell changes.
  have hsolved : ∀ c < n, Words.number? (out.extract (row * n) ((row + 1) * n)) c
      = some (f row c) := by
    intro c hc
    rw [← hcells _ hrow c hc, cell?_eq_number? hc, number?, number?, Array.getElem?_extract,
      if_pos]
    rw [Nat.succ_mul] at hend ⊢
    omega
  -- A sweep over the rows. A round owns its row but for the cell in the column,
  -- from which it takes the factor.
  rcases sweep (m := Option) (fun (ws : Words) k => ws.cell? n k)
    (fun ws : Words => ws.size = out.size)
    (fun r k => k.1 = r ∧ r ≠ row ∧ k.2 < cols ∧ k.2 ≠ col)
    (fun k => f k.1 k.2 - f row k.2 * f k.1 col / alpha)
    (fun ws r => (eliminateRow row col n cols
      (out.extract (row * n) ((row + 1) * n)) alpha r).run? ws)
    l out rfl (hnodup.imp fun hij k hk hk' => hij (hk.1.symm.trans hk'.1))
    (fun r hr s hs hown hfree => by
      by_cases hrr : r = row
      · refine ⟨s, Body.run?_eq_some.mpr ?_, hs, fun k hk => absurd hrr hk.2.1, fun _ _ => rfl⟩
        rw [eliminateRow, if_pos hrr]
        rfl
      · have hmine : ∀ c < n, s.cell? n (r, c) = some (f r c) := by
          intro c hc
          -- A cell the round does not own is owned by no round.
          by_cases hmine : c < cols ∧ c ≠ col
          · exact (hown (r, c) ⟨rfl, hrr, hmine⟩).trans (hcells r (hlt r hr) c hc)
          · refine (hfree (r, c) fun r' _ hk => hmine hk.2.2).trans (hcells r (hlt r hr) c hc)
        have hgamma : s.number? (r * n + col) = some (f r col) := by
          rw [← cell?_eq_number? hcol]
          exact hmine _ hcol
        rcases eliminateCells_eq col (f r col) alpha hcols hsolved hmine with ⟨hsz, hcell⟩
        refine ⟨_, Body.run?_eq_some.mpr ?_, hsz.trans hs, fun k hk => ?_, fun k hk => ?_⟩
        · rw [eliminateRow, if_neg hrr, if_pos hcol, Body.output_bind, hgamma]
          rfl
        · rw [hcell k, if_pos ⟨hk.1, hk.2.2⟩, hk.1]
        · rw [hcell k, if_neg fun hkk => hk ⟨hkk.1, hrr, hkk.2⟩]) with
    ⟨ws, hrun, hsz, hset, hkept⟩
  refine ⟨ws, Body.forM_eq_ok hrun, hsz, fun k => ?_⟩
  by_cases hk : (k.1 ∈ l ∧ k.1 ≠ row) ∧ k.2 < cols ∧ k.2 ≠ col
  · rw [if_pos hk]
    exact hset k ⟨k.1, hk.1.1, rfl, hk.1.2, hk.2⟩
  · rw [if_neg hk]
    exact hkept k fun r hr hkr => hk ⟨⟨hkr.1 ▸ hr, hkr.1 ▸ hkr.2.1⟩, hkr.2.2⟩

/-- The cells away from the row and the column. -/
theorem pivotUpdateInner_eq (h : inv.Finds m 1 0 w)
    {alpha : Binary32} {row col numRows n : Nat} (ha : inv.number 0 = alpha) (hr : inv.nat 1 = row)
    (hc : inv.nat 2 = col) (hm : inv.nat 3 = numRows) (hn : inv.nat 4 = n) {spanX spanY : Nat}
    (hx : inv.size.spanX = spanX) (hy : inv.size.spanY = spanY) (hcells : (w 0).Cells n rows f)
    (hrow : row < rows) (hrows : numRows ≤ rows) (hcol : col < n) :
    ∃ ws : Words, pivotUpdateInner inv m = (.ok (), m.store (inv.buffer 0) ws) ∧
      ws.size = (w 0).size ∧ ∀ k, ws.cell? n k
        = if (k.1 < min spanY numRows ∧ k.1 ≠ row) ∧
            k.2 < min spanX n ∧ k.2 ≠ col then
            some (f k.1 k.2 - f row k.2 * f k.1 col / alpha)
          else (w 0).cell? n k := by
  subst ha hr hc hm hn hx hy
  have hsize := hcells.le_size
  have hneed : inv.nat 3 * inv.nat 4 ≤ (w 0).size :=
    Nat.le_trans (Nat.mul_le_mul_right _ hrows) hsize
  have hneed' : (inv.nat 1 + 1) * inv.nat 4 ≤ (w 0).size :=
    Nat.le_trans (Nat.mul_le_mul_right _ hrow) hsize
  rcases forM_eliminateRow (inv.number 0)
    (List.nodup_range (n := min inv.size.spanY (inv.nat 3)))
    (fun r hr => by
      have := List.mem_range.mp hr
      omega)
    hcells hrow hcol (Nat.min_le_right inv.size.spanX (inv.nat 4)) with ⟨ws, hrun, hsz, hcell⟩
  refine ⟨ws, ?_, hsz, fun k => ?_⟩
  · unfold pivotUpdateInner
    -- The launch checks both sizes before it changes anything.
    rw [if_neg (by omega)]
    refine h.withOutput_eq ?_
    rw [Body.output_bind, Invocation.need_eq hneed, pure_bind, if_neg (Nat.not_lt.mpr hneed')]
    exact hrun
  · rw [hcell k]
    simp only [List.mem_range]

/-- The cells of the row that is solved, but for the one in the column. -/
theorem foldl_negate_eq {out : Words} {row n cols : Nat} (alpha : Binary32) (col : Nat)
    (hcells : out.Cells n rows f) (hrow : row < rows) (hcols : cols ≤ n) :
    ((List.range cols).foldl (fun (out : Words) c => if c = col then out
        else out.modify (row * n + c) fun w => (-(⟨w⟩ : Binary32) / alpha).bits) out).size
        = out.size ∧
      ∀ k, Words.cell? ((List.range cols).foldl (fun (out : Words) c => if c = col then out
          else out.modify (row * n + c) fun w => (-(⟨w⟩ : Binary32) / alpha).bits) out) n k
        = if k.1 = row ∧ k.2 < cols ∧ k.2 ≠ col then some (-f row k.2 / alpha)
          else out.cell? n k := by
  -- The sweep over the columns owns one cell per column: the pivot column is skipped, and each
  -- other cell is written from its value before the sweep.
  rcases sweep_foldl (fun (ws : Words) k => ws.cell? n k) (fun ws : Words => ws.size = out.size)
    (fun c k => k = (row, c) ∧ c ≠ col) (fun k => -f row k.2 / alpha)
    (fun (out : Words) c => if c = col then out
      else out.modify (row * n + c) fun w => (-(⟨w⟩ : Binary32) / alpha).bits)
    (List.range cols) out rfl
    (List.nodup_range.imp fun hij k hk hk' => hij (Prod.mk.inj (hk.1.symm.trans hk'.1)).2)
    (fun c hc s hs hown _ => by
      have hcn : c < n := Nat.lt_of_lt_of_le (List.mem_range.mp hc) hcols
      by_cases hcc : c = col
      · rw [if_pos hcc]
        exact ⟨hs, fun k hk => absurd hcc hk.2, fun _ _ => rfl⟩
      · rw [if_neg hcc]
        have hcell := cell?_modify s (fun x => -x / alpha) row hcn
        refine ⟨by rw [Array.size_modify, hs], ?_, fun k hk => ?_⟩
        · rintro k ⟨rfl, -⟩
          rw [hcell, if_pos rfl, hown _ ⟨rfl, hcc⟩, hcells _ hrow c hcn]
          rfl
        · rw [hcell, if_neg fun hk' => hk ⟨hk', hcc⟩]) with ⟨hsz, hset, hkept⟩
  refine ⟨hsz, fun k => ?_⟩
  by_cases hk : k.1 = row ∧ k.2 < cols ∧ k.2 ≠ col
  · rw [if_pos hk]
    exact hset k ⟨k.2, List.mem_range.mpr hk.2.1, Prod.ext hk.1 rfl, hk.2.2⟩
  · rw [if_neg hk]
    refine hkept k ?_
    rintro c hc ⟨rfl, hcc⟩
    exact hk ⟨rfl, List.mem_range.mp hc, hcc⟩

/-- The row that is solved, away from the column. -/
theorem pivotUpdateRow_eq (h : inv.Finds m 1 0 w)
    {alpha : Binary32} {row col n : Nat} (ha : inv.number 0 = alpha) (hr : inv.nat 1 = row)
    (hc : inv.nat 2 = col) (hn : inv.nat 3 = n) {span : Nat}
    (hx : inv.size.spanX = span) (hcells : (w 0).Cells n rows f)
    (hrow : row < rows) :
    ∃ ws : Words, pivotUpdateRow inv m = (.ok (), m.store (inv.buffer 0) ws) ∧
      ws.size = (w 0).size ∧ ∀ k, ws.cell? n k
        = if k.1 = row ∧ k.2 < min span n ∧ k.2 ≠ col then
            some (-f row k.2 / alpha)
          else (w 0).cell? n k := by
  subst ha hr hc hn hx
  -- The kernel reads and writes up to the end of the row it solves, which the cells of the
  -- tableau cover.
  have hneed : (inv.nat 1 + 1) * inv.nat 3 ≤ (w 0).size :=
    Nat.le_trans (Nat.mul_le_mul_right _ hrow) hcells.le_size
  refine ⟨_, ?_, foldl_negate_eq (inv.number 0) _ hcells hrow
    (Nat.min_le_right inv.size.spanX (inv.nat 3))⟩
  unfold pivotUpdateRow
  refine h.withOutput_eq ?_
  rw [Body.output_bind, Invocation.need_eq hneed, pure_bind]
  rfl

/-- Cells of the column, each of them once and in any order. The order is that in which a
    device happens to run the work items, so nothing may depend on it. -/
theorem forM_divideCell {out : Words} {row col n : Nat} (alpha : Binary32) {l : List Nat}
    (hnodup : l.Nodup) (hlt : ∀ r ∈ l, r < rows) (hcells : out.Cells n rows f) (hcol : col < n) :
    ∃ ws : Words, l.forM (divideCell row col n alpha) out = .ok () ws ∧ ws.size = out.size ∧
      ∀ k, ws.cell? n k
        = if (k.1 ∈ l ∧ k.1 ≠ row) ∧ k.2 = col then some (f k.1 col / alpha)
          else out.cell? n k := by
  -- Each row owns its cell of the column. That a row comes once is what makes the cell still hold
  -- its first value when its turn comes.
  rcases sweep (m := Option) (fun (ws : Words) k => ws.cell? n k)
    (fun ws : Words => ws.size = out.size)
    (fun r k => k = (r, col) ∧ r ≠ row) (fun k => f k.1 col / alpha)
    (fun ws r => (divideCell row col n alpha r).run? ws) l out rfl
    (hnodup.imp fun hij k hk hk' => hij (Prod.mk.inj (hk.1.symm.trans hk'.1)).1)
    (fun r hr s hs hown _ => by
      by_cases hrr : r = row
      · refine ⟨s, Body.run?_eq_some.mpr ?_, hs, fun k hk => absurd hrr hk.2, fun _ _ => rfl⟩
        rw [divideCell, if_pos hrr]
        rfl
      · have hold : s.cell? n (r, col) = some (f r col) :=
          (hown _ ⟨rfl, hrr⟩).trans (hcells r (hlt r hr) _ hcol)
        have hcell := cell?_modify s (fun _ => f r col / alpha) r hcol
        rw [← setIfInBounds_eq_modify] at hcell
        refine ⟨s.setIfInBounds (r * n + col) (f r col / alpha).bits, Body.run?_eq_some.mpr ?_,
          (Array.size_setIfInBounds).trans hs, ?_, fun k hk => ?_⟩
        · rw [cell?_eq_number? hcol] at hold
          rw [divideCell, if_neg hrr, Body.output_bind, hold]
          rfl
        · rintro k ⟨rfl, -⟩
          rw [hcell, if_pos rfl, hold, Option.map_some]
        · rw [hcell, if_neg fun hk' => hk ⟨hk', hrr⟩]) with ⟨ws, hrun, hsz, hset, hkept⟩
  refine ⟨ws, Body.forM_eq_ok hrun, hsz, fun k => ?_⟩
  by_cases hk : (k.1 ∈ l ∧ k.1 ≠ row) ∧ k.2 = col
  · rw [if_pos hk]
    exact hset k ⟨k.1, hk.1.1, Prod.ext rfl hk.2, hk.1.2⟩
  · rw [if_neg hk]
    refine hkept k ?_
    rintro r hr ⟨rfl, hrr⟩
    exact hk ⟨⟨hr, hrr⟩, rfl⟩

/-- The column, away from the row. It comes last, since the first part still needs the
    column as it was. -/
theorem pivotUpdateColumn_eq (h : inv.Finds m 1 0 w)
    {alpha : Binary32} {row col numRows n : Nat} (ha : inv.number 0 = alpha) (hr : inv.nat 1 = row)
    (hc : inv.nat 2 = col) (hm : inv.nat 3 = numRows) (hn : inv.nat 4 = n) {span : Nat}
    (hx : inv.size.spanX = span) (hcells : (w 0).Cells n rows f)
    (hrows : numRows ≤ rows) (hcol : col < n) :
    ∃ ws : Words, pivotUpdateColumn inv m = (.ok (), m.store (inv.buffer 0) ws) ∧
      ws.size = (w 0).size ∧ ∀ k, ws.cell? n k
        = if (k.1 < min span numRows ∧ k.1 ≠ row) ∧ k.2 = col then
            some (f k.1 col / alpha)
          else (w 0).cell? n k := by
  subst ha hr hc hm hn hx
  have hneed : inv.nat 3 * inv.nat 4 ≤ (w 0).size :=
    Nat.le_trans (Nat.mul_le_mul_right _ hrows) hcells.le_size
  rcases forM_divideCell (inv.number 0) (List.nodup_range (n := min inv.size.spanX (inv.nat 3)))
    (fun r hr => by
      have := List.mem_range.mp hr
      omega)
    hcells hcol with ⟨ws, hrun, hsz, hcell⟩
  refine ⟨ws, ?_, hsz, fun k => ?_⟩
  · unfold pivotUpdateColumn
    refine h.withOutput_eq ?_
    rw [Body.output_bind, Invocation.need_eq hneed, pure_bind]
    exact hrun
  · rw [hcell k]
    simp only [List.mem_range]

end Kernel

end BoundedSimplex
