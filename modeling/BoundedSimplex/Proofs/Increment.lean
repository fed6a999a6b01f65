import BoundedSimplex.Proofs.Nonbasic

/-!
# What an Exchange Does to the Values

Over exact numbers the correction and the recomputation come to the same.

An iteration works out values in two ways. The correction moves two variables,
by what the coefficient in the tableau before the exchange says. After the
exchange every basic variable is recomputed from the new tableau, the one that
has just entered among them, and so what the correction wrote for it is
overwritten. The recomputed value is the one that was there.

The new tableau need not be looked at for that. It has the solutions of the old
one, and the recomputed values solve it. So they satisfy the old rows, in which
only one column variable has changed, and the row of the variable that left says
by how much: that variable is on the bound which it violated, since it is not
recomputed. The other old rows say that their owners follow, each by its own
coefficient. All this needs the values before to satisfy the rows as well, which
they do during the whole search.

## Main definitions

* `Correction.Leads`: The bound that a correction leads to, and the change of the
  variable that takes part.
* `Sequential.Adjusts`: What an exchange did to the values.

## Theorems

* `Board.Valid.row_after`: The recomputed values satisfy the old rows.
* `Board.value_after_entering`: The variable that entered is where the correction
  put it.
* `Board.value_after_basic`: The other basic variables follow.
* `Sequential.adjusts_of_iterate`: The values after every iteration of a search.
-/

namespace BoundedSimplex

open Finset

/-! ### Boards -/

namespace Board

variable {b : Board Rat} {σ τ : Nat → Rat} {leaving entering : Nat}

/-- Values that differ in one column variable, in a row. -/
theorem rowSum_eq_add {col : Nat} (hcol : col < b.numCols)
    (hsame : ∀ c < b.numCols, c ≠ col → σ (b.basis.inCol c) = τ (b.basis.inCol c)) (r : Nat) :
    b.rowSum σ r
      = b.rowSum τ r + b.coeff r col * (σ (b.basis.inCol col) - τ (b.basis.inCol col)) := by
  have hrest : b.restSum σ col r = b.restSum τ col r := by
    refine sum_congr rfl fun c hc => ?_
    rcases mem_erase.mp hc with ⟨hne, hlt⟩
    rw [hsame c (mem_range.mp hlt) hne]
  rw [rowSum_eq hcol, rowSum_eq hcol, hrest]
  ring

/-- The distance to the bound is the coefficient times the change of the variable
    that takes part, in both directions of a correction. -/
theorem landing_sub (hcross : b.cross leaving entering ≠ 0) :
    b.landing leaving - b.value leaving
      = b.cross leaving entering * (b.moved leaving entering - b.value entering) := by
  unfold landing moved Correction.theta Correction.shift
  -- The two directions differ in the sign of the step and of the shift, and the signs cancel.
  cases (b.correction leaving).direction with
  | increase =>
      show b.value leaving + (b.correction leaving).delta - b.value leaving
        = b.cross leaving entering * (b.value entering
          + (b.correction leaving).delta / b.cross leaving entering - b.value entering)
      field_simp
      ring
  | decrease =>
      show b.value leaving - (b.correction leaving).delta - b.value leaving
        = b.cross leaving entering * (b.value entering
          - (b.correction leaving).delta / b.cross leaving entering - b.value entering)
      field_simp
      ring

section Exchange

variable (hv : b.Valid) (h : b.Exchanges leaving entering)
include hv h

/-- The recomputed values satisfy the rows as they were before the exchange. An exchange
    keeps the solutions, so the rows before and after it say the same of them. -/
theorem Valid.row_after {r : Nat} (hr : r < b.numRows) :
    b.Row (b.after leftSum leaving entering).value r :=
  (solves_after_iff hv h).mp (fun _ hr' => (hv.exchangedAfter h).row_recomputed hr') r hr

/-- The variables of the other columns have not moved. -/
theorem value_after_inCol {c : Nat} (hc : c < b.numCols) (hne : c ≠ b.basis.placeOf entering) :
    (b.after leftSum leaving entering).value (b.basis.inCol c) = b.value (b.basis.inCol c) := by
  rcases hv.basis.col c hc with ⟨-, hplace, hrole⟩
  have hl : b.basis.inCol c ≠ leaving := (ne_of_roles h.leaving_basic hrole).symm
  have he : b.basis.inCol c ≠ entering := by
    rintro rfl
    exact hne hplace.symm
  rw [value_after_nonbasic (by rw [role_after_other hl he, hrole]), if_neg hl]

variable (hrows : ∀ r < b.numRows, b.Row b.value r)
include hrows

/-- The owner of an old row follows the variable that entered. -/
theorem value_after_inRow {r : Nat} (hr : r < b.numRows) :
    (b.after leftSum leaving entering).value (b.basis.inRow r)
      = b.value (b.basis.inRow r) + b.coeff r (b.basis.placeOf entering)
        * ((b.after leftSum leaving entering).value entering - b.value entering) := by
  have hin := (hv.basis.nonbasic entering h.entering_lt h.entering_nonbasic).2
  have hsum := rowSum_eq_add (σ := (b.after leftSum leaving entering).value) (τ := b.value)
    (h.col_lt hv) (fun c hc hne => value_after_inCol hv h hc hne) r
  rw [hin] at hsum
  calc (b.after leftSum leaving entering).value (b.basis.inRow r)
      = b.rowSum (b.after leftSum leaving entering).value r := hv.row_after h hr
    _ = b.rowSum b.value r + b.coeff r (b.basis.placeOf entering)
        * ((b.after leftSum leaving entering).value entering - b.value entering) := hsum
    _ = _ := by rw [← hrows r hr]

/-- The variable that entered is recomputed, and is where the correction put it. In exact
    arithmetic the two ways to its value agree. -/
theorem value_after_entering :
    (b.after leftSum leaving entering).value entering = b.moved leaving entering := by
  have hcross := h.cross_ne_zero
  have hin := (hv.basis.basic leaving h.leaving_lt h.leaving_basic).2
  -- The row of the variable that left, which is on its bound.
  have hrow := value_after_inRow hv h hrows (h.row_lt hv)
  rw [hin, value_after_nonbasic (role_after_leaving h), if_pos rfl] at hrow
  have hmoved : b.cross leaving entering * (b.moved leaving entering - b.value entering)
      = b.cross leaving entering
        * ((b.after leftSum leaving entering).value entering - b.value entering) := by
    rw [← landing_sub hcross, hrow]
    exact add_sub_cancel_left _ _
  exact (sub_left_injective (mul_left_cancel₀ hcross hmoved)).symm

/-- The other basic variables of rows that are taken follow it, each by the coefficient that
    it had before the exchange. -/
theorem value_after_basic {r : Nat} (hr : r < b.numRows) :
    (b.after leftSum leaving entering).value (b.basis.inRow r)
      = b.value (b.basis.inRow r) + b.coeff r (b.basis.placeOf entering)
        * (b.moved leaving entering - b.value entering) := by
  rw [value_after_inRow hv h hrows hr, value_after_entering hv h hrows]

omit hrows in
/-- Whatever is none of these has not moved. -/
theorem value_after_rest {v : Nat} (hlt : v < b.numVars) (hl : v ≠ leaving) (he : v ≠ entering)
    (hnot : ∀ r < b.numRows, b.basis.inRow r ≠ v) :
    (b.after leftSum leaving entering).value v = b.value v := by
  cases hrole : b.role v with
  | nonbasic => rw [value_after_nonbasic (by rw [role_after_other hl he, hrole]), if_neg hl]
  | basic =>
      -- It owns a row that is not taken.
      rcases hv.basis.basic v hlt hrole with ⟨hrm, hback⟩
      have hfree : b.numRows ≤ b.basis.placeOf v :=
        Nat.le_of_not_lt fun hr => hnot _ hr hback
      have hspare : (b.after leftSum leaving entering).value (b.numCols + b.basis.placeOf v)
          = b.value (b.numCols + b.basis.placeOf v) := value_after_spare hv h hfree hrm
      rw [← hv.spare _ hfree hrm, hback] at hspare
      exact hspare

end Exchange

end Board

/-! ### What a solver reports -/

/-- The value `x` violates a bound, a correction leads to the bound `y`, and moves the
    variable of a column with this coefficient by `change`. The lower bound is preferred.
    Here the change has its sign, whereas the correction has a distance and a direction. -/
inductive Correction.Leads (i : Interval Rat) (x coeff : Rat) : (y change : Rat) → Prop where
  | up {l : Rat} : i.lower = some l → x < l → Leads i x coeff l ((l - x) / coeff)
  | down {u : Rat} : i.upper = some u → u < x → (∀ l, i.lower = some l → l ≤ x) →
      Leads i x coeff u (-((x - u) / coeff))

theorem Board.leads {b : Board Rat} {leaving entering : Nat} (hb : b.isBroken leaving = true) :
    Correction.Leads (b.interval leaving) (b.value leaving) (b.cross leaving entering)
      (b.landing leaving) (b.moved leaving entering - b.value entering) := by
  unfold landing moved correction
  -- A broken variable is below a lower bound or above an upper one, and the lower one is looked
  -- at first.
  rcases Correction.ofBroken_cases hb with ⟨l, hl, hlt, heq⟩ | ⟨u, hu, hlt, hnot, heq⟩
  · rw [heq]
    have hland : b.value leaving + (l - b.value leaving) = l := by ring
    have hmove : b.value entering + (l - b.value leaving) / b.cross leaving entering
        - b.value entering = (l - b.value leaving) / b.cross leaving entering := by ring
    show Correction.Leads _ _ _ (b.value leaving + (l - b.value leaving))
      (b.value entering + (l - b.value leaving) / b.cross leaving entering - b.value entering)
    rw [hland, hmove]
    exact .up hl hlt
  · rw [heq]
    have hland : b.value leaving - (b.value leaving - u) = u := by ring
    have hmove : b.value entering - (b.value leaving - u) / b.cross leaving entering
        - b.value entering = -((b.value leaving - u) / b.cross leaving entering) := by ring
    show Correction.Leads _ _ _ (b.value leaving - (b.value leaving - u))
      (b.value entering - (b.value leaving - u) / b.cross leaving entering - b.value entering)
    rw [hland, hmove]
    exact .down hu hlt hnot

namespace Sequential

open Board

/-- What an exchange did to the values, given the tableau and the basis before it: the
    values are `x` before, `y` right after the correction, and `z` after the rows were
    recomputed. The engine computes `z` from the tableau after the exchange; that this is
    what the one before it says is the point. -/
structure Adjusts (w : Workspace (Sequential Rat) Rat) (numVars : Nat) (i : Interval Rat)
    (leaving entering : Nat) (x y z : Nat → Rat) : Prop where
  /-- The variable that left is on the bound it violated, and the one that entered
      has moved by the distance divided by their coefficient. Both are where the
      correction put them. -/
  pair : ∃ row col coeff change, w.basis.place? leaving = some row ∧
    w.basis.place? entering = some col ∧ w.tableau.coeff? row col = some coeff ∧ coeff ≠ 0 ∧
    Correction.Leads i (x leaving) coeff (z leaving) change ∧ y leaving = z leaving ∧
    z entering = x entering + change ∧ y entering = z entering
  /-- The correction moves nothing else. -/
  corrected : ∀ v < numVars, v ≠ leaving → v ≠ entering → y v = x v
  /-- The owner of any other row that is taken follows the variable that entered. -/
  row : ∀ r < w.tableau.numRows, ∀ v, w.basis.rowVar? r = some v → v ≠ leaving →
    ∃ col coeff, w.basis.place? entering = some col ∧ w.tableau.coeff? r col = some coeff ∧
      z v = x v + coeff * (z entering - x entering)
  /-- All other variables are where they were. -/
  rest : ∀ v < numVars, v ≠ leaving → v ≠ entering →
    (∀ r < w.tableau.numRows, w.basis.rowVar? r ≠ some v) → z v = x v

variable {w : Workspace (Sequential Rat) Rat} {b : Board Rat} {leaving entering : Nat}

/-- The values of three boards, one after the other: before the iteration, after the broken
    variable was put at its bound, and after the rows were recomputed. -/
theorem Shows.adjusts (hw : Shows w b) (hv : b.Valid) (h : b.Exchanges leaving entering)
    (hrows : ∀ r < b.numRows, b.Row b.value r) :
    Adjusts w b.numVars (b.interval leaving) leaving entering b.value
      (b.corrected leaving entering).value (b.after leftSum leaving entering).value := by
  have hcol := h.col_lt hv
  have hplace : w.basis.place? entering = some (b.basis.placeOf entering) := by
    rw [hw.basis, hv.basis.place?_eq h.entering_lt]
  have hcell : ∀ r < b.numRows, w.tableau.coeff? r (b.basis.placeOf entering)
      = some (b.coeff r (b.basis.placeOf entering)) :=
    fun r hr => hw.tableau.coeff?_eq (Nat.lt_of_lt_of_le hr hv.numRows_le) hcol
  -- After the exchange the variable that left is nonbasic, so recomputing the rows leaves it at
  -- its bound.
  have hleft : (b.after leftSum leaving entering).value leaving = b.landing leaving := by
    rw [value_after_nonbasic (role_after_leaving h), if_pos rfl]
  have hentered := value_after_entering hv h hrows
  constructor
  case pair =>
    refine ⟨b.basis.placeOf leaving, b.basis.placeOf entering, b.cross leaving entering,
      b.moved leaving entering - b.value entering, ?_, hplace, hcell _ (h.row_lt hv),
      h.cross_ne_zero, ?_, ?_, ?_, ?_⟩
    · rw [hw.basis, hv.basis.place?_eq h.leaving_lt]
    · rw [hleft]
      exact Board.leads (firstBroken_eq_some h.broken).2.2.1
    · rw [hleft]
      exact if_pos rfl
    · rw [hentered, add_sub_cancel]
    · rw [hentered]
      exact (if_neg h.ne.symm).trans (if_pos rfl)
  case corrected =>
    intro v _ hl he
    exact (if_neg hl).trans (if_neg he)
  case row =>
    intro r hr v hrow _
    rw [hw.tableau.numRows] at hr
    rw [hw.basis, hv.basis.rowVar?_eq (Nat.lt_of_lt_of_le hr hv.numRows_le), Option.some.injEq]
      at hrow
    -- The row held before, so its new sum is the old value and what the entering variable adds to
    -- it.
    refine ⟨_, _, hplace, hcell r hr, ?_⟩
    rw [← hrow, hentered, value_after_basic hv h hrows hr]
  case rest =>
    intro v hlt hl he hnot
    refine value_after_rest hv h hlt hl he fun r hr heq => ?_
    refine hnot r (by rw [hw.tableau.numRows]; exact hr) ?_
    rw [hw.basis, hv.basis.rowVar?_eq (Nat.lt_of_lt_of_le hr hv.numRows_le), heq]

section Search

variable {τ : Type} {maxRows numCols : Nat} {config : Config Rat} {calls : List (BuildCall Rat)}
  {t u : Traced τ} {s : Solver (Sequential Rat) Rat} {j : Journal}
  {t₁ : Traced (Solver (Sequential Rat) Rat)}

/-- Every iteration of every search that exchanges two variables leaves the values
    that the correction and the old tableau say: the recomputation agrees with the
    correction on the two variables that were exchanged, and moves the others by
    what the one that entered was moved by. -/
theorem adjusts_of_iterate (hmake : Solver.sequential maxRows numCols config t = .ok s u)
    (hbuild : Solver.build calls ⟨s, j⟩ = .ok () t₁) {n : Nat}
    {w v : Traced (Solver (Sequential Rat) Rat)} (hreach : Solver.Reaches t₁ n w)
    (hit : Solver.iterate n w = .ok none v) :
    ∃ leaving entering m x y z,
      v.state.history = w.state.history.push ⟨n, leaving, entering⟩ ∧
      Solver.onWorkspace (Engine.findSuitable leaving) w = .ok (some entering) m ∧
      (∀ k < numCols + maxRows, Solver.HasValue w k (x k) ∧ Solver.HasValue m k (y k) ∧
        Solver.HasValue v k (z k)) ∧
      Adjusts w.state.workspace (numCols + maxRows)
        ((Problem.ofCalls maxRows numCols calls).bounds leaving) leaving entering x y z := by
  have hp := Problem.length_rows_ofCalls maxRows numCols calls
  have hv₀ := Problem.valid_board hp config.tolerance
  rcases Problem.dimensions_ofCalls maxRows numCols calls with ⟨hmaxRows, hnumCols⟩
  rcases at_board_of_build hmake hbuild hreach with ⟨l, b, hrun, rfl, hat⟩
  have hvalid := hrun.valid hv₀
  have hnum : b.numVars = numCols + maxRows := by
    rw [numVars, hrun.same.numCols, hrun.same.maxRows]
    exact congrArg₂ _ hnumCols hmaxRows
  rcases Solver.iterate_cases follows hat hvalid with ⟨sat, -, hgives⟩ |
    ⟨leaving, entering, b', hnext, hgives⟩ | ⟨limit, -, -, -, hstops⟩ | ⟨_, hstuck, -⟩
  · exact absurd (hgives.result hit).1 (by simp only [reduceCtorEq, not_false_eq_true])
  · rcases next_eq_exchange_iff.mp hnext with ⟨hex, rfl⟩
    have hat' := (hgives.result hit).2
    -- The correction is made on the board that the iteration has found.
    rcases hat.onWorkspace (P := fun r b' => r = some entering ∧ b' = b.corrected leaving entering)
      ((findSuitable_some hat.shows_board hvalid hex).mono
        fun r w' hr => ⟨_, ⟨hr.1, rfl⟩, hr.2⟩) w.journal with
      ⟨_, s', j', hfind, _, ⟨rfl, rfl⟩, hcorrected⟩
    refine ⟨leaving, entering, ⟨s', j'⟩, b.value, (b.corrected leaving entering).value,
      (b.after leftSum leaving entering).value, ?_, hfind, fun k hk => ?_, ?_⟩
    · rw [hat'.history, hat.history, Solver.stepsOf_append, Array.append_push]
    · rw [← hnum] at hk
      have hk' : k < (b.corrected leaving entering).numVars := hk
      have hk'' : k < (b.after leftSum leaving entering).numVars := hk
      exact ⟨(Solver.hasValue_iff reads hat hk).mpr rfl,
        (Solver.hasValue_iff reads hcorrected hk').mpr rfl,
        (Solver.hasValue_iff reads hat' hk'').mpr rfl⟩
    · have hadjusts := hat.shows_board.adjusts hvalid hex fun r hr =>
        hrun.row_value hv₀ (row_value_board _ _) r (Nat.lt_of_lt_of_le hr hvalid.numRows_le)
      rw [hnum, hrun.same.interval] at hadjusts
      exact hadjusts
  · exact absurd hit hstops.not_ok
  · cases hstuck

/-- Two sums of two variables. The first one has to be at least two, and the second one
    counts one of the variables three times. -/
def pairedCalls : List (BuildCall Rat) :=
  [.constraint #[1, 1], .constraint #[3, 1], .bounds 2 (.lower (some 2))]

/-- A solver on tables of the process that was just made. -/
def newSolver {α : Type} [Scalar α] (maxRows numCols : Nat) (config : Config α) :
    Solver (Sequential α) α :=
  .fresh maxRows numCols config (initial maxRows numCols config.tolerance)

/-- The solver of these constraints. -/
def pairedSolver : Traced (Solver (Sequential Rat) Rat) :=
  Exec.final (Solver.build pairedCalls ⟨newSolver 2 2 exactConfig, #[]⟩)

/-- The first iteration of a search exchanges the first slack, which is below its lower
    bound of two, with the first variable. The second slack stays basic, and follows by
    three times as much. -/
theorem adjusts_of_iterate_paired :
    ∃ w v, Solver.Reaches pairedSolver 0 w ∧ Solver.iterate 0 w = .ok none v ∧
      ∃ m x y z, v.state.history = w.state.history.push ⟨0, 2, 0⟩ ∧
        Solver.onWorkspace (Engine.findSuitable 2) w = .ok (some 0) m ∧
        (∀ k < 4, Solver.HasValue w k (x k) ∧ Solver.HasValue m k (y k) ∧
          Solver.HasValue v k (z k)) ∧
        (x 3 = 0 ∧ y 3 = 0 ∧ z 3 = 6) ∧
        Adjusts w.state.workspace 4 ((Problem.ofCalls 2 2 pairedCalls).bounds 2) 2 0 x y z := by
  -- What has to be known of the run is evaluated; the clauses about the values are then read off
  -- the theorem.
  have hmake : Solver.sequential 2 2 exactConfig (⟨(), #[]⟩ : Traced Unit)
      = .ok (newSolver 2 2 exactConfig) ⟨(), #[.solverCreated 2 2 "sequential"]⟩ := rfl
  have hbuild : Exec.value? (Solver.build pairedCalls ⟨newSolver 2 2 exactConfig, #[]⟩)
      = some () := by decide +kernel
  have hphase : pairedSolver.state.phase = .building := by decide +kernel
  have hopen : Exec.value? (Solver.opening pairedSolver) = some () := by decide +kernel
  have hiterate : Exec.value? (Solver.iterate 0 (Exec.final (Solver.opening pairedSolver)))
      = some none := by decide +kernel
  have hhistory :
      (Exec.final (Solver.iterate 0 (Exec.final (Solver.opening pairedSolver)))).state.history
        = (Exec.final (Solver.opening pairedSolver)).state.history.push ⟨0, 2, 0⟩ := by
    decide +kernel
  have hbefore : Exec.value? (Solver.assignment 3 (Exec.final (Solver.opening pairedSolver)))
      = some 0 := by decide +kernel
  have hafter : Exec.value? (Solver.assignment 3
      (Exec.final (Solver.iterate 0 (Exec.final (Solver.opening pairedSolver))))) = some 6 := by
    decide +kernel
  have hreach := Solver.Reaches.start hphase (Exec.eq_ok_of_value? hopen)
  have hit := Exec.eq_ok_of_value? hiterate
  rcases adjusts_of_iterate hmake (Exec.eq_ok_of_value? hbuild) hreach hit with
    ⟨leaving, entering, m, x, y, z, hpushed, hfind, hvalues, hadjusts⟩
  rw [hhistory, Array.push_eq_push] at hpushed
  rcases hpushed.1 with ⟨⟩
  -- The second slack is the one that no correction touches: the row of it was recomputed.
  rcases hvalues 3 (by decide) with ⟨hx, -, hz⟩
  have hx3 : x 3 = 0 := Option.some.inj (hx.symm.trans hbefore)
  have hy3 : y 3 = x 3 := hadjusts.corrected 3 (by decide) (by decide) (by decide)
  have hz3 : z 3 = 6 := Option.some.inj (hz.symm.trans hafter)
  exact ⟨_, _, hreach, hit, m, x, y, z, hhistory, hfind, hvalues, ⟨hx3, hy3.trans hx3, hz3⟩,
    hadjusts⟩

end Search

end Sequential

end BoundedSimplex
