import Mathlib.Algebra.BigOperators.Group.Finset.Basic
import Mathlib.Algebra.BigOperators.Field
import Mathlib.Tactic.FieldSimp
import Mathlib.Tactic.LinearCombination
import Mathlib.Tactic.Ring
import BoundedSimplex.Proofs.Building

/-!
# The Equations of a Tableau

Over exact numbers every tableau of a search states the same equations.

A row reads as an equation: its variable equals the combination of the column
variables. An exchange solves one of these equations for another variable and
substitutes the solution in all others, so that an assignment satisfies the
rows afterwards exactly if it satisfied them before. The coefficient that is
divided by is not zero, which is why a variable without one is never chosen.

The same equations hold of the values themselves. They do at the start, where
everything lies at zero, and recomputing the rows restores them after every
exchange. Rows that are not taken count as well here: such a row is zero and
states that its slack is zero.

## Main definitions

* `Board.Row`, `Board.Solves`: The equation of a row, and of all rows taken.
* `Problem.Solves`: The equations as they were added.
* `Workspace.Solves`: The equations of a tableau with its basis.

## Theorems

* `Board.solves_exchanged_iff`: An exchange keeps the solutions.
* `Board.Run.solves_iff`: So does a whole search.
* `Board.Run.row_value`: The values satisfy every row.
-/

namespace BoundedSimplex

open Finset

/-- In exact numbers a sum from left to right is the sum. -/
theorem leftSum_eq_sum (n : Nat) (item : Nat → Rat) : leftSum n item = ∑ c ∈ range n, item c := by
  induction n with
  | zero => rfl
  | succ n ih =>
      rw [sum_range_succ, ← ih]
      simp only [leftSum, List.range_succ, List.foldl_append, List.foldl_cons, List.foldl_nil]

namespace Board

variable (b : Board Rat) (σ : Nat → Rat)

/-- The combination that a row states. -/
def rowSum (r : Nat) : Rat := ∑ c ∈ range b.numCols, b.coeff r c * σ (b.basis.inCol c)

/-- The equation of a row. -/
def Row (r : Nat) : Prop := σ (b.basis.inRow r) = b.rowSum σ r

/-- The equations of all rows that are taken. -/
def Solves : Prop := ∀ r < b.numRows, b.Row σ r

/-- The combination that a row states, apart from one column. -/
def restSum (col r : Nat) : Rat :=
  ∑ c ∈ (range b.numCols).erase col, b.coeff r c * σ (b.basis.inCol c)

variable {b σ} {leaving entering : Nat}

theorem rowSum_eq {col : Nat} (hcol : col < b.numCols) (r : Nat) :
    b.rowSum σ r = b.restSum σ col r + b.coeff r col * σ (b.basis.inCol col) :=
  (sum_erase_add (range b.numCols) _ (mem_range.mpr hcol)).symm

/-! ### What an exchange does to an equation -/

section Exchange

variable (hv : b.Valid) (he : entering < b.numVars) (hen : b.role entering = .nonbasic)
include hv he hen

/-- In the row that was solved the variable that left stands for the one that
    entered. -/
theorem rowSum_exchanged_self (hcross : b.cross leaving entering ≠ 0) :
    (b.exchanged leaving entering).rowSum σ (b.basis.placeOf leaving)
      = (σ leaving - b.restSum σ (b.basis.placeOf entering) (b.basis.placeOf leaving))
        / b.cross leaving entering := by
  rcases hv.basis.nonbasic entering he hen with ⟨hcol, howner⟩
  rw [rowSum_eq (b := b.exchanged leaving entering) hcol]
  -- The basis is the old one but for the column of the exchange.
  have hin : ∀ c < b.numCols, (b.exchanged leaving entering).basis.inCol c
      = if c = b.basis.placeOf entering then leaving else b.basis.inCol c :=
    fun c hc => hv.basis.inCol_swapped hc
  -- Each remaining cell was negated and divided by the crossing cell, and so is their sum.
  have hrest : (b.exchanged leaving entering).restSum σ (b.basis.placeOf entering)
      (b.basis.placeOf leaving)
      = -b.restSum σ (b.basis.placeOf entering) (b.basis.placeOf leaving)
        / b.cross leaving entering := by
    unfold restSum
    rw [← sum_neg_distrib, sum_div]
    refine sum_congr rfl fun c hc => ?_
    rcases mem_erase.mp hc with ⟨hne, hlt⟩
    rw [hin c (mem_range.mp hlt), if_neg hne]
    show exchangedCell _ _ _ b.coeff _ _ * _ = _
    rw [exchangedCell, if_pos rfl, if_neg hne]
    show -b.coeff _ c / b.coeff _ _ * _ = _ / b.coeff _ _
    ring
  rw [hrest, hin _ hcol, if_pos rfl]
  show _ + exchangedCell _ _ _ b.coeff _ _ * σ leaving = _
  rw [exchangedCell, if_pos rfl, if_pos rfl]
  show _ + 1 / b.cross leaving entering * σ leaving = _
  field_simp
  ring

/-- In every other row the variable that left takes the place of the one that
    entered, and brings its share of the row that was solved. -/
theorem rowSum_exchanged_other {r : Nat} (hr : r < b.numRows) (hne : r ≠ b.basis.placeOf leaving) :
    (b.exchanged leaving entering).rowSum σ r
      = b.restSum σ (b.basis.placeOf entering) r
        + b.coeff r (b.basis.placeOf entering) / b.cross leaving entering
          * (σ leaving - b.restSum σ (b.basis.placeOf entering) (b.basis.placeOf leaving)) := by
  rcases hv.basis.nonbasic entering he hen with ⟨hcol, -⟩
  have hin : ∀ c < b.numCols, (b.exchanged leaving entering).basis.inCol c
      = if c = b.basis.placeOf entering then leaving else b.basis.inCol c :=
    fun c hc => hv.basis.inCol_swapped hc
  -- Each remaining cell lost a multiple of the cell above it in the solved row, and the multiple
  -- is the same all along the row.
  have hrest : (b.exchanged leaving entering).restSum σ (b.basis.placeOf entering) r
      = b.restSum σ (b.basis.placeOf entering) r
        - b.coeff r (b.basis.placeOf entering) / b.cross leaving entering
          * b.restSum σ (b.basis.placeOf entering) (b.basis.placeOf leaving) := by
    unfold restSum
    rw [mul_sum, ← sum_sub_distrib]
    refine sum_congr rfl fun c hc => ?_
    rcases mem_erase.mp hc with ⟨hcne, hlt⟩
    rw [hin c (mem_range.mp hlt), if_neg hcne]
    show exchangedCell _ _ _ b.coeff _ _ * _ = _
    rw [exchangedCell, if_neg hne, if_pos hr, if_neg hcne]
    show (b.coeff r c - b.coeff _ c * b.coeff r _ / b.cross leaving entering) * _ = _
    ring
  rw [rowSum_eq (b := b.exchanged leaving entering) hcol, hrest, hin _ hcol, if_pos rfl]
  show _ + exchangedCell _ _ _ b.coeff _ _ * σ leaving = _
  rw [exchangedCell, if_neg hne, if_pos hr, if_pos rfl]
  show _ + b.coeff r _ / b.cross leaving entering * σ leaving = _
  ring

end Exchange

/-- An exchange at a coefficient other than zero keeps the solutions. The row of the
    exchange is solved for another variable, and what it says is put into all other rows;
    both can be undone. -/
theorem solves_exchanged_iff (hv : b.Valid) (hl : leaving < b.numVars) (he : entering < b.numVars)
    (hlb : b.role leaving = .basic) (hen : b.role entering = .nonbasic)
    (hrow : b.basis.placeOf leaving < b.numRows) (hcross : b.cross leaving entering ≠ 0) :
    (b.exchanged leaving entering).Solves σ ↔ b.Solves σ := by
  rcases hv.basis.basic leaving hl hlb with ⟨-, hrowl⟩
  rcases hv.basis.nonbasic entering he hen with ⟨hcol, hcole⟩
  have hin : ∀ r < b.numRows, (b.exchanged leaving entering).basis.inRow r
      = if r = b.basis.placeOf leaving then entering else b.basis.inRow r :=
    fun r hr => hv.basis.inRow_swapped (Nat.lt_of_lt_of_le hr hv.numRows_le)
  -- The row that is solved says the same before and after.
  have hself : (b.exchanged leaving entering).Row σ (b.basis.placeOf leaving)
      ↔ b.Row σ (b.basis.placeOf leaving) := by
    rw [Row, Row, rowSum_exchanged_self hv he hen hcross, rowSum_eq hcol, hin _ hrow, if_pos rfl,
      hrowl, hcole, eq_div_iff hcross]
    show _ ↔ _ = _ + b.cross leaving entering * σ entering
    constructor
    · intro h
      linear_combination -h
    · intro h
      linear_combination -h
  -- Where it holds, so do the others.
  have hother : b.Row σ (b.basis.placeOf leaving) → ∀ r < b.numRows,
      r ≠ b.basis.placeOf leaving →
      ((b.exchanged leaving entering).Row σ r ↔ b.Row σ r) := by
    intro hsolved r hr hne
    rw [Row, rowSum_eq hcol, hrowl, hcole] at hsolved
    have hdiff : σ leaving - b.restSum σ (b.basis.placeOf entering) (b.basis.placeOf leaving)
        = b.cross leaving entering * σ entering := by
      show _ = b.coeff _ _ * _
      linear_combination hsolved
    rw [Row, Row, rowSum_exchanged_other hv he hen hr hne, rowSum_eq hcol, hin r hr, if_neg hne,
      hcole, hdiff, ← mul_assoc, div_mul_cancel₀ _ hcross]
  constructor
  · intro h r hr
    have hsolved := hself.mp (h _ hrow)
    by_cases hne : r = b.basis.placeOf leaving
    · rw [hne]
      exact hsolved
    · exact (hother hsolved r hr hne).mp (h r hr)
  · intro h r hr
    by_cases hne : r = b.basis.placeOf leaving
    · rw [hne]
      exact hself.mpr (h _ hrow)
    · exact (hother (h _ hrow) r hr hne).mpr (h r hr)

/-- Equations do not depend on values. -/
theorem solves_withValue_iff {v : Nat} {x : Rat} : (b.withValue v x).Solves σ ↔ b.Solves σ :=
  Iff.rfl

theorem solves_recomputed_iff {sum : Summation Rat} : (b.recomputed sum).Solves σ ↔ b.Solves σ :=
  Iff.rfl

/-- So does an iteration, which changes nothing else about the equations. -/
theorem solves_after_iff {sum : Summation Rat} (hv : b.Valid) (h : b.Exchanges leaving entering) :
    (b.after sum leaving entering).Solves σ ↔ b.Solves σ := by
  rw [after, solves_recomputed_iff, solves_exchanged_iff hv.corrected h.leaving_lt h.entering_lt
    h.leaving_basic h.entering_nonbasic (h.row_lt hv) h.cross_ne_zero, corrected,
    solves_withValue_iff, solves_withValue_iff]

/-- Every board of a search has the same solutions, as the coefficient of an exchange is
    never zero. -/
theorem Run.solves_iff {sum : Summation Rat} {b₀ : Board Rat} {l : List (Nat × Nat)}
    (h : Run sum b₀ l b) (hv₀ : b₀.Valid) : b.Solves σ ↔ b₀.Solves σ := by
  induction h with
  | start => exact Iff.rfl
  | step hrun hnext ih =>
      rcases next_eq_exchange_iff.mp hnext with ⟨hex, rfl⟩
      exact (solves_after_iff (hrun.valid hv₀) hex).trans ih

/-! ### The values -/

/-- A row that is not taken states that its slack is zero. -/
theorem Valid.row_spare_iff (hv : b.Valid) {r : Nat} (hr : b.numRows ≤ r) (hrm : r < b.maxRows) :
    b.Row σ r ↔ σ (b.numCols + r) = 0 := by
  have hzero : b.rowSum σ r = 0 := by
    refine sum_eq_zero fun c hc => ?_
    rw [hv.zero r hr hrm c (mem_range.mp hc)]
    exact zero_mul _
  rw [Row, hzero, hv.spare r hr hrm]

/-- What was recomputed satisfies its row. -/
theorem Valid.row_recomputed (hv : b.Valid) {r : Nat} (hr : r < b.numRows) :
    (b.recomputed leftSum).Row (b.recomputed leftSum).value r := by
  rcases hv.basis.row r (Nat.lt_of_lt_of_le hr hv.numRows_le) with ⟨hlt, hplace, hrole⟩
  show (b.recomputed leftSum).value (b.basis.inRow r) = _
  rw [value_recomputed_basic hlt hrole (by rw [hplace]; exact hr), hplace, leftSum_eq_sum]
  refine sum_congr rfl fun c hc => ?_
  have hc' : c < b.numCols := mem_range.mp hc
  show b.products r c = b.coeff r c * (b.recomputed leftSum).value (b.basis.inCol c)
  rw [value_recomputed_nonbasic (hv.basis.col c hc').2.2, products, if_pos hc']
  exact mul_comm _ _

/-- The values satisfy every row during the whole search. A correction breaks the rows for a
    moment, and recomputing them puts this right at the end of the iteration. -/
theorem Run.row_value {b₀ : Board Rat} {l : List (Nat × Nat)} (h : Run leftSum b₀ l b)
    (hv₀ : b₀.Valid) (h₀ : ∀ r < b₀.maxRows, b₀.Row b₀.value r) :
    ∀ r < b.maxRows, b.Row b.value r := by
  -- Induction on the exchanges. A row that is filled holds because it is recomputed after the
  -- exchange; one that is not holds because its slack never moves.
  induction h with
  | start => exact h₀
  | @step l b b' leaving entering hrun hnext ih =>
      have hv := hrun.valid hv₀
      rcases next_eq_exchange_iff.mp hnext with ⟨hex, rfl⟩
      intro r hrm
      by_cases hr : r < b.numRows
      · exact (hv.exchangedAfter hex).row_recomputed hr
      · have hr' := Nat.le_of_not_lt hr
        have hold := ((hv.row_spare_iff hr' hrm).mp (ih r hrm))
        refine ((hv.after hex).row_spare_iff hr' hrm).mpr ?_
        exact (value_after_spare hv hex hr' hrm).trans hold

end Board

/-! ### The equations a caller added -/

/-- The equations as they were added: each slack equals the combination of the
    problem variables in its row. -/
def Problem.Solves (p : Problem Rat) (σ : Nat → Rat) : Prop :=
  ∀ r < p.rows.length, σ (p.numCols + r) = ∑ c ∈ range p.numCols, p.coeff r c * σ c

theorem Problem.solves_board_iff {p : Problem Rat} (h : p.rows.length ≤ p.maxRows) {σ : Nat → Rat}
    {tolerance : Rat} : (p.board tolerance).Solves σ ↔ p.Solves σ := by
  have hrow : ∀ r < p.rows.length, (p.board tolerance).Row σ r ↔
      σ (p.numCols + r) = ∑ c ∈ range p.numCols, p.coeff r c * σ c := by
    intro r hr
    have hsum : (p.board tolerance).rowSum σ r = ∑ c ∈ range p.numCols, p.coeff r c * σ c := by
      refine sum_congr rfl fun c hc => ?_
      show p.coeff r c * σ ((Basis.ofDimensions p.maxRows p.numCols).inCol c) = _
      rw [Basis.inCol_ofDimensions (mem_range.mp hc)]
    have hin : (p.board tolerance).basis.inRow r = p.numCols + r :=
      Basis.inRow_ofDimensions (Nat.lt_of_lt_of_le hr h)
    rw [Board.Row, hsum, hin]
  exact ⟨fun hs r hr => (hrow r hr).mp (hs r hr), fun hs r hr => (hrow r hr).mpr (hs r hr)⟩

/-! ### The equations of a solver -/

/-- The equations of a tableau with its basis. -/
def Workspace.Solves {β : Type} (w : Workspace β Rat) (σ : Nat → Rat) : Prop :=
  ∀ r < w.tableau.numRows, σ (w.basis.inRow r)
    = ∑ c ∈ range w.tableau.numCols, (w.tableau.coeff? r c).getD 0 * σ (w.basis.inCol c)

namespace Sequential

theorem Shows.solves_iff {w : Workspace (Sequential Rat) Rat} {b : Board Rat} (h : Shows w b)
    (hv : b.Valid) {σ : Nat → Rat} : w.Solves σ ↔ b.Solves σ := by
  -- The equations of a workspace are read from its tableau and those of a board from its cells,
  -- and shown cells are the same.
  have hsum : ∀ r < b.numRows, ∑ c ∈ range w.tableau.numCols,
      (w.tableau.coeff? r c).getD 0 * σ (w.basis.inCol c) = b.rowSum σ r := by
    intro r hr
    rw [h.tableau.numCols, h.basis]
    refine sum_congr rfl fun c hc => ?_
    have hcell := h.tableau.coeff r (by
      rw [h.tableau.maxRows]
      exact Nat.lt_of_lt_of_le hr hv.numRows_le) c (by
      rw [h.tableau.numCols]
      exact mem_range.mp hc)
    rw [hcell, Option.getD_some]
  unfold Workspace.Solves Board.Solves Board.Row
  rw [h.tableau.numRows]
  constructor
  · intro hs r hr
    rw [← hsum r hr, ← h.basis]
    exact hs r hr
  · intro hs r hr
    rw [hsum r hr, h.basis]
    exact hs r hr

section Search

variable {τ : Type} {maxRows numCols : Nat} {config : Config Rat} {calls : List (BuildCall Rat)}
  {t u : Traced τ} {s : Solver (Sequential Rat) Rat} {j : Journal}
  {t₁ : Traced (Solver (Sequential Rat) Rat)}

/-- Between any two iterations of a search, and after its end however it
    ended, the tableau has the same solutions as the equations that were
    added. -/
theorem solves_iff_of_run (hmake : Solver.sequential maxRows numCols config t = .ok s u)
    (hbuild : Solver.build calls ⟨s, j⟩ = .ok () t₁) (σ : Nat → Rat) :
    (∀ n v, Solver.Reaches t₁ n v →
      (v.state.workspace.Solves σ ↔ (Problem.ofCalls maxRows numCols calls).Solves σ)) ∧
    ∀ fuel v, ((∃ sat, Solver.solve fuel t₁ = .ok sat v) ∨ ∃ e, Solver.solve fuel t₁ = .error e v) →
      (v.state.workspace.Solves σ ↔ (Problem.ofCalls maxRows numCols calls).Solves σ) := by
  have hp := Problem.length_rows_ofCalls maxRows numCols calls
  have hv₀ := Problem.valid_board hp config.tolerance
  -- Wherever the search stands, it stands at a board that a run of exchanges has led to. Such a
  -- board has the solutions of the first one.
  have hat : ∀ {l b v}, Board.Run leftSum
      ((Problem.ofCalls maxRows numCols calls).board config.tolerance) l b →
      Solver.At Shows t₁.state v b l →
      (v.workspace.Solves σ ↔ (Problem.ofCalls maxRows numCols calls).Solves σ) := by
    intro l b v hrun hat
    rw [hat.shows_board.solves_iff (hrun.valid hv₀), hrun.solves_iff hv₀,
      Problem.solves_board_iff hp]
  constructor
  · intro n v hreach
    rcases at_board_of_build hmake hbuild hreach with ⟨l, b, hrun, -, hv⟩
    exact hat hrun hv
  · intro fuel v hsolve
    rcases at_board_of_solve hmake hbuild hsolve with ⟨l, b, hrun, hv⟩
    exact hat hrun hv

end Search

/-- Exact numbers without a tolerance, and no limits. -/
def exactConfig : Config Rat := ⟨0, none, none⟩

/-- One variable of at most one, and a constraint by which it is at least
    two. -/
def crossedCalls : List (BuildCall Rat) :=
  [.constraint #[1], .bounds 1 (.both ⟨some 2, none⟩), .bounds 0 (.upper (some 1))]

/-- A solver of one constraint and one problem variable that was just made. -/
def exactSolver : Solver (Sequential Rat) Rat :=
  Solver.fresh 1 1 exactConfig (Sequential.initial 1 1 exactConfig.tolerance)

/-- The same solver after these calls. -/
def crossedSolver : Traced (Solver (Sequential Rat) Rat) :=
  Exec.final (Solver.build crossedCalls ⟨exactSolver, #[]⟩)

theorem sequential_exactSolver :
    Solver.sequential 1 1 exactConfig (⟨(), #[]⟩ : Traced Unit)
      = .ok exactSolver ⟨(), #[.solverCreated 1 1 "sequential"]⟩ := rfl

theorem build_crossedSolver :
    Solver.build crossedCalls ⟨exactSolver, #[]⟩ = .ok () crossedSolver := by
  refine Exec.eq_ok_of_value? ?_
  decide +kernel

/-- After one exchange the tableau of this solver still states that the slack
    equals the variable. -/
theorem solves_iff_of_run_crossed :
    ∃ v, Solver.Reaches crossedSolver 1 v ∧
      ∀ σ : Nat → Rat,
        v.state.workspace.Solves σ ↔ (Problem.ofCalls 1 1 crossedCalls).Solves σ := by
  have hphase : crossedSolver.state.phase = .building := by decide +kernel
  have hopen : Exec.value? (Solver.opening crossedSolver) = some () := by decide +kernel
  have hiterate : Exec.value? (Solver.iterate 0 (Exec.final (Solver.opening crossedSolver)))
      = some none := by decide +kernel
  have hreach := (Solver.Reaches.start hphase (Exec.eq_ok_of_value? hopen)).next
    (Exec.eq_ok_of_value? hiterate)
  exact ⟨_, hreach, fun σ =>
    (solves_iff_of_run sequential_exactSolver build_crossedSolver σ).1 _ _ hreach⟩

end Sequential

end BoundedSimplex
