import BoundedSimplex.Proofs.Sweep
import BoundedSimplex.Tableau.Matrix

/-!
# What an Exchange Computes

The exchange of a row with a column as four formulas on the coefficients.

The exchange works in place: it changes the cells away from the row and the
column, then the row, then the column, and last the cell where they meet. The
formulas of each part refer to cells that only later parts change, so all of
them can be read on the tableau as it was before. `exchangedCell` is that
reading, and `exchange?_shows` says that the exchange computes it, for every
place of the row and the column.

A tableau lies in one run of cells, and a column beyond the last one would
read on in the next row. Coefficients are therefore read through `coeff?`,
which has no such columns.

## Main definitions

* `Tableau.coeff?`: A coefficient by row and column.
* `Tableau.Shows`: The coefficients of a tableau as a function.
* `Tableau.SameShape`: As many rows and columns.
* `exchangedCell`: The coefficients after an exchange.

## Theorems

* `cellIndex_inj`: Different rows and columns have different cells.
* `Tableau.coeff?_set?`: A coefficient reads back what was written last.
* `Tableau.exchange?_shows`: The exchange computes the four formulas.
-/

namespace BoundedSimplex

/-- The coefficients after row `row` was solved for column `col`, in terms of
    those before. Rows that are not taken stay as they are. -/
def exchangedCell {α : Type} [Scalar α] (numRows row col : Nat) (f : Nat → Nat → α) (r c : Nat) :
    α :=
  if r = row then
    if c = col then 1 / f row col else -f row c / f row col
  else if r < numRows then
    if c = col then f r col / f row col else f r c - f row c * f r col / f row col
  else f r c

/-- The cells of a table of `n` columns: different rows and columns have
    different cells. -/
theorem cellIndex_inj {n r r' c c' : Nat} (hc : c < n) (hc' : c' < n)
    (h : r * n + c = r' * n + c') : r = r' ∧ c = c' := by
  rcases Nat.lt_trichotomy r r' with hlt | heq | hgt
  · have := Nat.mul_le_mul_right n (Nat.succ_le_of_lt hlt)
    rw [Nat.succ_mul] at this
    omega
  · subst heq
    omega
  · have := Nat.mul_le_mul_right n (Nat.succ_le_of_lt hgt)
    rw [Nat.succ_mul] at this
    omega

theorem cellIndex_lt {m n r c : Nat} (hr : r < m) (hc : c < n) : r * n + c < m * n := by
  have := Nat.mul_le_mul_right n (Nat.succ_le_of_lt hr)
  rw [Nat.succ_mul] at this
  omega

namespace Tableau

variable {α : Type}

/-- As many rows and columns, and as many rows taken. -/
structure SameShape (u t : Tableau α) : Prop where
  maxRows : u.maxRows = t.maxRows
  numRows : u.numRows = t.numRows
  numCols : u.numCols = t.numCols

theorem SameShape.refl (t : Tableau α) : t.SameShape t := ⟨rfl, rfl, rfl⟩

theorem SameShape.trans {t u v : Tableau α} (h : v.SameShape u) (h' : u.SameShape t) :
    v.SameShape t :=
  ⟨h.maxRows.trans h'.maxRows, h.numRows.trans h'.numRows, h.numCols.trans h'.numCols⟩

theorem sameShape_set? {t u : Tableau α} {i : Nat} {x : α} (h : t.set? i x = some u) :
    u.SameShape t :=
  ⟨(numCols_set? h).2.1, (numCols_set? h).2.2, (numCols_set? h).1⟩

/-- A coefficient by row and column. There is nothing beyond the last
    column. -/
def coeff? (t : Tableau α) (r c : Nat) : Option α :=
  if c < t.numCols then t.cell? (r * t.numCols + c) else none

/-- The coefficients of all rows there is room for are the values of `f`. -/
def Shows (t : Tableau α) (f : Nat → Nat → α) : Prop :=
  ∀ r < t.maxRows, ∀ c < t.numCols, t.coeff? r c = some (f r c)

theorem coeff?_eq_cell? {t : Tableau α} {r c : Nat} (hc : c < t.numCols) :
    t.coeff? r c = t.cell? (r * t.numCols + c) := by
  simp only [coeff?, if_pos hc]

/-- A cell that exists can be written, and every coefficient reads back what
    was written last. -/
theorem coeff?_set? {t : Tableau α} {r c : Nat} {x : α} (hr : r < t.maxRows)
    (hc : c < t.numCols) :
    ∃ u, t.set? (r * t.numCols + c) x = some u ∧ u.SameShape t ∧
      u.coeff? r c = some x ∧ ∀ r' c', ¬ (r' = r ∧ c' = c) → u.coeff? r' c' = t.coeff? r' c' := by
  -- The cell exists because the array always has one for each row and column.
  have hlt : r * t.numCols + c < t.cells.size := by
    rw [t.size_cells]
    exact cellIndex_lt hr hc
  cases hset : t.set? (r * t.numCols + c) x with
  | none => simp only [set?, dif_pos hlt, reduceCtorEq] at hset
  | some u =>
      have hshape := sameShape_set? hset
      refine ⟨u, rfl, hshape, ?_, ?_⟩
      · rw [coeff?_eq_cell? (by rw [hshape.numCols]; exact hc), cell?_set? hset, hshape.numCols,
          if_pos rfl]
      · intro r' c' hne
        simp only [coeff?, hshape.numCols]
        -- Another column of the range has another position. One outside has no cell before nor
        -- after.
        by_cases hc' : c' < t.numCols
        · rw [if_pos hc', if_pos hc', cell?_set? hset, if_neg]
          intro heq
          rcases cellIndex_inj hc hc' heq with ⟨h₁, h₂⟩
          exact hne ⟨h₁.symm, h₂.symm⟩
        · rw [if_neg hc', if_neg hc']

/-! ### The four parts -/

section Exchange

variable {t : Tableau α} {f : Nat → Nat → α} {row col : Nat}

/-- Coefficients by a pair of row and column. -/
def at? (t : Tableau α) (k : Nat × Nat) : Option α := t.coeff? k.1 k.2

/-- A part that replaces single cells by a formula on what they hold: every
    cell of a list of different places. -/
theorem replace_sweep {ι : Type} (g : α → α) (place : ι → Nat × Nat) {l : List ι} {s : Tableau α}
    (hs : s.SameShape t) (hnd : l.Pairwise fun i j => place i ≠ place j)
    (hin : ∀ i ∈ l, (place i).1 < t.maxRows ∧ (place i).2 < t.numCols)
    (old : Nat × Nat → α)
    (hold : ∀ i ∈ l, s.coeff? (place i).1 (place i).2 = some (old (place i))) :
    ∃ u, l.foldlM (fun u i => do
        let x ← u.cell? ((place i).1 * u.numCols + (place i).2)
        u.set? ((place i).1 * u.numCols + (place i).2) (g x)) s = some u ∧ u.SameShape t ∧
      (∀ i ∈ l, u.coeff? (place i).1 (place i).2 = some (g (old (place i)))) ∧
      ∀ r c, (∀ i ∈ l, place i ≠ (r, c)) → u.coeff? r c = s.coeff? r c := by
  rcases sweep (m := Option) at? (fun u => u.SameShape t) (fun i k => place i = k)
    (fun k => g (old k))
    (fun u i => do
      let x ← u.cell? ((place i).1 * u.numCols + (place i).2)
      u.set? ((place i).1 * u.numCols + (place i).2) (g x)) l s hs
    (hnd.imp fun hij k h h' => hij (h.trans h'.symm))
    (fun i hi u hu hown hfree => by
      rcases hin i hi with ⟨hr, hc⟩
      -- No other round writes to this place, so it holds what it held before.
      have hx : u.cell? ((place i).1 * u.numCols + (place i).2) = some (old (place i)) := by
        rw [← coeff?_eq_cell? (by rw [hu.numCols]; exact hc)]
        exact (hown (place i) rfl).trans (hold i hi)
      rcases coeff?_set? (x := g (old (place i))) (by rw [hu.maxRows]; exact hr)
        (by rw [hu.numCols]; exact hc) with ⟨v, hset, hv, hnew, hkept⟩
      refine ⟨v, ?_, hv.trans hu, ?_, fun k hk => hkept k.1 k.2 fun h => hk ?_⟩
      · rw [hx]
        exact hset
      · rintro k rfl
        exact hnew
      · exact (Prod.ext h.1 h.2).symm) with ⟨u, hfold, hu, hset, hkept⟩
  exact ⟨u, hfold, hu, fun i hi => hset (place i) ⟨i, hi, rfl⟩, fun r c h => hkept (r, c) h⟩

variable [Scalar α]

/-- One row of the first part: the cells of row `i` away from the column. The
    row that is solved and the column are read as they were. -/
theorem eliminateRow?_sweep (alpha : α) {i : Nat} {s : Tableau α} (hi : i < t.maxRows)
    (hne : i ≠ row) (hcol : col < t.numCols) (hs : s.SameShape t)
    (hcolumn : s.coeff? i col = some (f i col))
    (hsolved : ∀ c < t.numCols, c ≠ col → s.coeff? row c = some (f row c))
    (hmine : ∀ c < t.numCols, c ≠ col → s.coeff? i c = some (f i c)) :
    ∃ u, eliminateRow? row col alpha s i = some u ∧ u.SameShape t ∧
      (∀ c < t.numCols, c ≠ col →
        u.coeff? i c = some (f i c - f row c * f i col / alpha)) ∧
      ∀ r c, (r = i ∧ c < t.numCols → c = col) → u.coeff? r c = s.coeff? r c := by
  have hgamma : s.cell? (i * s.numCols + col) = some (f i col) := by
    rw [← coeff?_eq_cell? (by rw [hs.numCols]; exact hcol), hcolumn]
  rcases sweep (m := Option) at? (fun u => u.SameShape t)
    (fun j k => k = (i, j) ∧ j ≠ col) (fun k => f i k.2 - f row k.2 * f i col / alpha)
    (fun u j => if j = col then some u else do
      let beta ← u.cell? (row * u.numCols + j)
      let old ← u.cell? (i * u.numCols + j)
      u.set? (i * u.numCols + j) (old - beta * f i col / alpha))
    (List.range s.numCols) s hs
    (List.nodup_range.imp fun hjj k h h' => hjj (Prod.mk.inj (h.1.symm.trans h'.1)).2)
    (fun j hj u hu hown hfree => by
      have hjn : j < t.numCols := by rw [← hs.numCols]; exact List.mem_range.mp hj
      by_cases hjc : j = col
      · refine ⟨u, by rw [if_pos hjc]; rfl, hu, fun k hk => absurd hjc hk.2, fun k _ => rfl⟩
      -- The solved row is another one, and is not written.
      · have hbeta : u.cell? (row * u.numCols + j) = some (f row j) := by
          rw [← coeff?_eq_cell? (by rw [hu.numCols]; exact hjn)]
          refine (hfree (row, j) fun j' _ h => hne ?_).trans (hsolved j hjn hjc)
          exact (Prod.mk.inj h.1).1.symm
        have hold : u.cell? (i * u.numCols + j) = some (f i j) := by
          rw [← coeff?_eq_cell? (by rw [hu.numCols]; exact hjn)]
          exact (hown (i, j) ⟨rfl, hjc⟩).trans (hmine j hjn hjc)
        rcases coeff?_set? (x := f i j - f row j * f i col / alpha)
          (by rw [hu.maxRows]; exact hi) (by rw [hu.numCols]; exact hjn) with
          ⟨v, hset, hv, hnew, hkept⟩
        refine ⟨v, ?_, hv.trans hu, ?_, ?_⟩
        · rw [if_neg hjc, hbeta, hold]
          exact hset
        · rintro k ⟨rfl, -⟩
          exact hnew
        · intro k hk
          exact hkept k.1 k.2 fun h => hk ⟨Prod.ext h.1 h.2, hjc⟩) with
    ⟨u, hfold, hu, hset, hkept⟩
  refine ⟨u, ?_, hu, fun c hc hcc => ?_, fun r c hrc => ?_⟩
  · simp only [eliminateRow?, hgamma, Option.bind_eq_bind, Option.bind_some]
    exact hfold
  · exact hset (i, c) ⟨c, List.mem_range.mpr (by rw [hs.numCols]; exact hc), rfl, hcc⟩
  · refine hkept (r, c) ?_
    rintro j hj ⟨hk, hjc⟩
    rcases Prod.mk.inj hk with ⟨rfl, rfl⟩
    exact hjc (hrc ⟨rfl, by rw [← hs.numCols]; exact List.mem_range.mp hj⟩)

/-- The first part: the cells away from the row and the column. -/
theorem eliminate_sweep (alpha : α) {others : List Nat} (hcol : col < t.numCols)
    (ht : t.Shows f) (hrow : row < t.maxRows) (hnd : others.Nodup)
    (hothers : ∀ i ∈ others, i < t.maxRows ∧ i ≠ row) :
    ∃ u, others.foldlM (eliminateRow? row col alpha) t = some u ∧ u.SameShape t ∧
      (∀ i ∈ others, ∀ c < t.numCols, c ≠ col →
        u.coeff? i c = some (f i c - f row c * f i col / alpha)) ∧
      ∀ r c, (r ∈ others → c < t.numCols → c = col) → u.coeff? r c = t.coeff? r c := by
  rcases sweep (m := Option) at? (fun u => u.SameShape t)
    (fun i k => k.1 = i ∧ k.2 < t.numCols ∧ k.2 ≠ col)
    (fun k => f k.1 k.2 - f row k.2 * f k.1 col / alpha) (eliminateRow? row col alpha) others t
    (SameShape.refl t) (hnd.imp fun hij k h h' => hij (h.1.symm.trans h'.1))
    (fun i hi s hs hown hfree => by
      rcases hothers i hi with ⟨hilt, hine⟩
      -- The solved row and the column belong to no round.
      have hsolved : ∀ c < t.numCols, s.coeff? row c = some (f row c) := fun c hc =>
        (hfree (row, c) fun j hj h => (hothers j hj).2 h.1.symm).trans (ht row hrow c hc)
      have hcolumn : s.coeff? i col = some (f i col) :=
        (hfree (i, col) fun j _ h => h.2.2 rfl).trans (ht i hilt col hcol)
      rcases eliminateRow?_sweep alpha hilt hine hcol hs hcolumn
        (fun c hc _ => hsolved c hc)
        (fun c hc hcc => (hown (i, c) ⟨rfl, hc, hcc⟩).trans (ht i hilt c hc)) with
        ⟨u, hrun, hu, hset, hkept⟩
      refine ⟨u, hrun, hu, ?_, ?_⟩
      · rintro ⟨r, c⟩ ⟨rfl, hc, hcc⟩
        exact hset c hc hcc
      · rintro ⟨r, c⟩ hk
        refine hkept r c fun h => ?_
        by_cases hcc : c = col
        · exact hcc
        · exact absurd ⟨h.1, h.2, hcc⟩ hk) with ⟨u, hfold, hu, hset, hkept⟩
  refine ⟨u, hfold, hu, fun i hi c hc hcc => hset (i, c) ⟨i, hi, rfl, hc, hcc⟩, fun r c hrc => ?_⟩
  refine hkept (r, c) ?_
  rintro i hi ⟨rfl, hc, hcc⟩
  exact hcc (hrc hi hc)

/-- The exchange computes the four formulas, for a row that is taken and a column there is.
    The inner cells are computed first, so they still find the row and the column as they
    were. -/
theorem exchange?_shows (hrow : row < t.numRows) (hcap : t.numRows ≤ t.maxRows)
    (hcol : col < t.numCols) (ht : t.Shows f) :
    ∃ u, t.exchange? row col = some u ∧ u.SameShape t ∧
      u.Shows (exchangedCell t.numRows row col f) := by
  have hrow' : row < t.maxRows := by omega
  have halpha : t.cell? (row * t.numCols + col) = some (f row col) := by
    rw [← coeff?_eq_cell? hcol]
    exact ht row hrow' col hcol
  -- The rows besides the one that is solved, and the columns besides the one.
  have hothers : ∀ i ∈ (List.range t.numRows).filter (· ≠ row), i < t.maxRows ∧ i ≠ row := by
    intro i hi
    simp only [List.mem_filter, List.mem_range, decide_eq_true_eq, ne_eq] at hi
    exact ⟨by omega, hi.2⟩
  have hnd : ((List.range t.numRows).filter (· ≠ row)).Nodup := List.nodup_range.filter _
  -- The three parts one after the other, and last the cell where row and column
  -- meet. Each part finds what it reads as it was at first.
  rcases eliminate_sweep (f row col) hcol ht hrow' hnd hothers with
    ⟨u₁, hrun₁, hu₁, hset₁, hkept₁⟩
  have hcols : ∀ j ∈ (List.range u₁.numCols).filter (· ≠ col), j < t.numCols ∧ j ≠ col := by
    intro j hj
    simp only [List.mem_filter, List.mem_range, decide_eq_true_eq, ne_eq, hu₁.numCols] at hj
    exact hj
  rcases replace_sweep (fun x => -x / f row col) (fun j => (row, j)) hu₁
    ((List.nodup_range.filter _).imp fun hij h => hij (Prod.mk.inj h).2)
    (fun j hj => ⟨hrow', (hcols j hj).1⟩) (fun k => f k.1 k.2)
    (fun j hj => (hkept₁ row j fun h => absurd rfl (hothers row h).2).trans
      (ht row hrow' j (hcols j hj).1)) with ⟨u₂, hrun₂, hu₂, hset₂, hkept₂⟩
  rcases replace_sweep (fun x => x / f row col) (fun i => (i, col)) hu₂
    (hnd.imp fun hij h => hij (Prod.mk.inj h).1)
    (fun i hi => ⟨(hothers i hi).1, hcol⟩) (fun k => f k.1 k.2)
    (fun i hi => by
      rw [hkept₂ i col fun j _ h => (hothers i hi).2 (Prod.mk.inj h).1.symm,
        hkept₁ i col fun _ _ => rfl]
      exact ht i (hothers i hi).1 col hcol) with ⟨u₃, hrun₃, hu₃, hset₃, hkept₃⟩
  rcases coeff?_set? (x := 1 / f row col) (by rw [hu₃.maxRows]; exact hrow')
    (by rw [hu₃.numCols]; exact hcol) with ⟨u, hrun, hu, hnew, hkept⟩
  refine ⟨u, ?_, hu.trans hu₃, ?_⟩
  · rw [hu₃.numCols] at hrun
    simp only [Option.bind_eq_bind] at hrun₂ hrun₃
    simp only [exchange?, halpha, Option.bind_eq_bind, Option.bind_some, hrun₁, hrun₂, hrun₃]
    exact hrun
  · intro r hr c hc
    rw [(hu.trans hu₃).maxRows] at hr
    rw [(hu.trans hu₃).numCols] at hc
    simp only [exchangedCell]
    by_cases hrr : r = row
    · rw [if_pos hrr]
      subst hrr
      by_cases hcc : c = col
      · rw [if_pos hcc, hcc]
        exact hnew
      · have hmem : c ∈ (List.range u₁.numCols).filter (· ≠ col) := by
          simp only [List.mem_filter, List.mem_range, decide_eq_true_eq, ne_eq, hu₁.numCols]
          exact ⟨hc, hcc⟩
        rw [if_neg hcc, hkept r c (fun h => hcc h.2),
          hkept₃ r c (fun i hi h => hcc (Prod.mk.inj h).2.symm)]
        exact hset₂ c hmem
    · rw [if_neg hrr, hkept r c (fun h => hrr h.1)]
      by_cases hrn : r < t.numRows
      · have hmem : r ∈ (List.range t.numRows).filter (· ≠ row) := by
          simp only [List.mem_filter, List.mem_range, decide_eq_true_eq, ne_eq]
          exact ⟨hrn, hrr⟩
        rw [if_pos hrn]
        by_cases hcc : c = col
        · rw [if_pos hcc, hcc]
          exact hset₃ r hmem
        · rw [if_neg hcc, hkept₃ r c (fun i _ h => hcc (Prod.mk.inj h).2.symm),
            hkept₂ r c (fun j _ h => hrr (Prod.mk.inj h).1.symm)]
          exact hset₁ r hmem c hc hcc
      · -- A row that is not taken is read and written by no part.
        rw [if_neg hrn, hkept₃ r c (fun i hi h => hrn ?_),
          hkept₂ r c (fun j _ h => hrr (Prod.mk.inj h).1.symm), hkept₁ r c (fun hi => ?_)]
        · exact ht r hr c hc
        · simp only [List.mem_filter, List.mem_range] at hi
          exact absurd hi.1 hrn
        · simp only [List.mem_filter, List.mem_range] at hi
          rw [← (Prod.mk.inj h).1]
          exact hi.1

end Exchange

end Tableau

end BoundedSimplex
