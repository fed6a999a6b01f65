import BoundedSimplex.Proofs.Bookkeeping
import BoundedSimplex.Proofs.Limits

/-!
# Rows That Add Up

The values that a solver reports agree with the tableau that it reports.

An iteration corrects two values, exchanges two variables, and only then adds up
the rows, one after the other and in place. In between nothing agrees. But the
sum of a row reads the column variables alone, and no column variable owns a row,
so a row that was recomputed does not show in any other one. After the last row
all of them add up, not approximately but bit for bit: each value is the sum that
the engine takes of the products of what it reports otherwise.

No way out of a search lies in between. A search ends with a verdict or at its
limit before it corrects anything, and leaves the values of the iteration before.
If there was none, every value is still zero, and rows need not add up to a zero
of the same sign.

## Main definitions

* `Solver.product?`: A product of what a solver reports.
* `Solver.AddsUp`: The value of a row is the sum of its products.
* `Solver.RowConsistent`: All rows add up, once there was an exchange.

## Theorems

* `Board.Run.value_inRow`: The rows after an exchange.
* `Solver.rowConsistent_of_standing`: The rows at a board.
* `rowConsistent_at_boundary`: The rows on both engines.
-/

namespace BoundedSimplex

/-- After an exchange the value of every row that is taken is the sum of its
    products as they are now. -/
theorem Board.Run.value_inRow {α : Type} [Scalar α] [StrictScalar α] {sum : Summation α}
    {b₀ b : Board α} {l : List (Nat × Nat)} (h : Board.Run sum b₀ l b) (hv : b₀.Valid) (hl : l ≠ [])
    {r : Nat} (hr : r < b.numRows) :
    b.value (b.basis.inRow r) = sum b.numCols (b.products r) := by
  cases h with
  | start => exact absurd rfl hl
  | @step l b' _ leaving entering hrun hnext =>
      rcases next_eq_exchange_iff.mp hnext with ⟨hex, rfl⟩
      have hv' := (hrun.valid hv).exchangedAfter hex
      -- The products are read off the board as it was before the rows were added up.
      have hproducts : (b'.after sum leaving entering).products r
          = ((b'.corrected leaving entering).exchanged leaving entering).products r :=
        hv'.products_recomputed r
      rcases hv'.basis.row r (Nat.lt_of_lt_of_le hr hv'.numRows_le) with ⟨hlt, hplace, hrole⟩
      rw [hproducts]
      refine (value_recomputed_basic hlt hrole ?_).trans ?_
      · rw [hplace]
        exact hr
      · rw [hplace]
        rfl

namespace Solver

section Statement

variable {β α : Type} [Scalar α] [Engine β α]

/-- The product of a row and a column, from what the solver reports: the value of
    the column's variable times the coefficient. -/
def product? (u : Traced (Solver β α)) (row col : Nat) : Option α := do
  let var ← u.state.basis.colVar? col
  let x ← Exec.value? (assignment var u)
  let coeff ← Exec.value? (entry row col u)
  some (x * coeff)

/-- The variable of a row is reported at the sum of the row's products. Products and sum are
    those of the engine, in its arithmetic. -/
def AddsUp (sum : Summation α) (u : Traced (Solver β α)) (row : Nat) : Prop :=
  ∃ var products, u.state.basis.rowVar? row = some var ∧
    (∀ col < u.state.numCols, product? u row col = some (products col)) ∧
    (∀ col, u.state.numCols ≤ col → products col = 0) ∧
    HasValue u var (sum u.state.numCols products)

/-- Once there was an exchange all rows that are taken add up, and before that every value
    is zero. The sum is the one of the engine, with its roundings, so a row adds up bit for
    bit and not only approximately. -/
structure RowConsistent (sum : Summation α) (u : Traced (Solver β α)) : Prop where
  untouched : u.state.history = #[] → ∀ v < u.state.numVars, HasValue u v 0
  rows : u.state.history ≠ #[] → ∀ row < u.state.numRows, AddsUp sum u row

end Statement

section Standing

variable {β α : Type} [Scalar α] [Engine β α] {Show : Workspace β α → Board α → Prop}
  {b : Board α} {u : Traced (Solver β α)}

/-- The products of what is reported are those of the board. -/
theorem product?_eq (hR : Engine.Reports Show) (h : Show u.state.workspace b) (hv : b.Valid)
    {r c : Nat} (hr : r < b.maxRows) (hc : c < b.numCols) :
    product? u r c = some (b.products r c) := by
  have hvar : u.state.basis.colVar? c = some (b.basis.inCol c) := by
    rw [show u.state.basis = b.basis from hR.basis _ _ h]
    exact hv.basis.colVar?_eq hc
  rw [product?, hvar, value?_entry hR h hr hc, Board.products, if_pos hc]
  simp only [Option.bind_eq_bind, Option.bind_some,
    value?_assignment hR h (hv.basis.col c hc).1]

theorem stepsOf_eq_empty_iff {l : List (Nat × Nat)} : stepsOf l = #[] ↔ l = [] := by
  rw [stepsOf, List.toArray_eq_iff, List.mapIdx_eq_nil_iff]

variable [StrictScalar α] {R : Engine.Reading β α} {maxRows numCols : Nat} {c : Config α}

/-- The rows at a board. Before the first exchange they need not add up, since no row has
    been computed; afterwards each basic variable is the sum of its row, in the order in
    which the engine adds. -/
theorem rowConsistent_of_standing (h : Standing R maxRows numCols c u.state) :
    RowConsistent R.sum u := by
  rcases h.reports with ⟨Show, p, l, b, hR, hshow, hp, hrun, hhistory⟩
  have hv₀ := Problem.valid_board hp.rows c.tolerance
  have hv := hrun.valid hv₀
  have hsized := hR.sized _ _ hshow
  have hcols : u.state.numCols = b.numCols := hsized.numCols
  constructor
  -- No exchange was made: the board is the one of the problem, where everything rests at zero.
  · intro hempty v hlt
    rw [hhistory, stepsOf_eq_empty_iff] at hempty
    subst hempty
    have hvars : u.state.numVars = b.numVars :=
      congrArg₂ (· + ·) hsized.numCols hsized.maxRows
    have hvalue : b.value v = 0 := by
      rw [hrun.unique .start rfl |>.2]
      rfl
    rw [HasValue, value?_assignment hR hshow (by rw [← hvars]; exact hlt), hvalue]
  -- Some exchange was made, and the last thing that an exchange does is to recompute the rows.
  · intro hsome r hlt
    have hl : l ≠ [] := fun hl => hsome (by rw [hhistory, stepsOf_eq_empty_iff.mpr hl])
    have hr : r < b.numRows := by
      rw [← hsized.numRows]
      exact hlt
    have hrm := Nat.lt_of_lt_of_le hr hv.numRows_le
    refine ⟨b.basis.inRow r, b.products r, ?_, fun col hcol => ?_, fun col hcol => ?_, ?_⟩
    · rw [show u.state.basis = b.basis from hR.basis _ _ hshow]
      exact hv.basis.rowVar?_eq hrm
    · exact product?_eq hR hshow hv hrm (by rw [← hcols]; exact hcol)
    · rw [hcols] at hcol
      exact if_neg (Nat.not_lt.mpr hcol)
    · rw [HasValue, value?_assignment hR hshow (hv.basis.row r hrm).1, hcols,
        hrun.value_inRow hv₀ hl hr]

end Standing

end Solver

/-! ### Both engines -/

/-- The rows on both engines, at the end of every session and between all iterations of its
    searches. Each engine has its own way to add them up, one item after the other or along
    trees. Exchanges move no values, so it is the recomputation at the end of an iteration
    that makes the rows consistent. -/
theorem rowConsistent_at_boundary (maxRows numCols : Nat) (config : Config Binary32)
    (ops : List (Operation Binary32)) :
    (∀ t v, Sequential.Made maxRows numCols config t → Solver.Boundary ops t v →
      Solver.RowConsistent leftSum v) ∧
    ∀ host j s u j' v, Solver.parallel maxRows numCols config ⟨.toHost host, j⟩ = .ok s u →
      Solver.Boundary ops ⟨s.attach u.state, j'⟩ v →
      Solver.RowConsistent
        (groupedSum (Geometry.ofDevice host.info config.maxWorkgroupSize).workgroup) v := by
  constructor
  · intro t v hmade hboundary
    rcases Sequential.stage_of_made hmade with ⟨-, hstage⟩
    exact Solver.rowConsistent_of_standing (hboundary.standing hstage)
  · intro host j s u j' v hmake hboundary
    rcases Parallel.stage_of_parallel hmake with ⟨-, hstage⟩
    exact Solver.rowConsistent_of_standing (hboundary.standing hstage)

/-- A limit of one iteration. -/
def Config.once : Config Binary32 := { Config.standard with maxIterations := some 1 }

/-- A session whose search needs two exchanges: a sum of two variables has to be at
    least three, and so has one of them. -/
def twoBrokenSession : List (Operation Binary32) :=
  [.build (.constraint #[⟨0x3f800000⟩, ⟨0x3f800000⟩]),
    .build (.constraint #[⟨0⟩, ⟨0x3f800000⟩]),
    .build (.bounds 2 (.lower (some ⟨0x40400000⟩))),
    .build (.bounds 3 (.lower (some ⟨0x40400000⟩))), .solve 3]

/-- The second exchange is over the limit, and the rows add up after the first
    one. -/
theorem rowConsistent_at_boundary_once :
    (∃ t v, Sequential.Made 2 2 .once t ∧ Solver.Boundary twoBrokenSession t v ∧
      v.state.phase = .aborted ∧ v.state.history = #[⟨0, 2, 0⟩] ∧
      Solver.RowConsistent leftSum v) ∧
    ∃ s u v, Solver.parallel 2 2 .once ⟨.toHost (.idle ⟨4, 1⟩), #[]⟩ = .ok s u ∧
      Solver.Boundary twoBrokenSession ⟨s.attach u.state, #[]⟩ v ∧
      v.state.phase = .aborted ∧ v.state.history = #[⟨0, 2, 0⟩] ∧
      Solver.RowConsistent (groupedSum (Geometry.ofDevice (HostDevice.idle ⟨4, 1⟩).info
        Config.once.maxWorkgroupSize).workgroup) v := by
  constructor
  -- The search is cut after one exchange, so the boundary lies between two iterations.
  · have hrun : Exec.endsWith (Solver.sequential 2 2 .once (⟨(), #[]⟩ : Traced Unit)) (fun s _ =>
        Exec.endsWith (Solver.session twoBrokenSession ⟨s, #[]⟩) fun _ v =>
          decide (v.state.phase = .aborted ∧ v.state.history = #[⟨0, 2, 0⟩])) = true := by
      decide +kernel
    rcases Exec.exists_of_endsWith hrun with ⟨s, u, hmake, hrest⟩
    rcases Exec.exists_of_endsWith hrest with ⟨answers, v, hsession, htest⟩
    have hmade : Sequential.Made 2 2 .once ⟨s, #[]⟩ := ⟨_, s, u, #[], hmake, rfl⟩
    have hrows := (rowConsistent_at_boundary 2 2 .once twoBrokenSession).1 _ v hmade
      (.after hsession)
    rcases of_decide_eq_true htest with ⟨hphase, hhistory⟩
    exact ⟨_, v, hmade, .after hsession, hphase, hhistory, hrows⟩
  · have hrun : Exec.endsWith (Solver.parallel 2 2 .once ⟨.toHost (.idle ⟨4, 1⟩), #[]⟩) (fun s u =>
        Exec.endsWith (Solver.session twoBrokenSession ⟨s.attach u.state, #[]⟩) fun _ v =>
          decide (v.state.phase = .aborted ∧ v.state.history = #[⟨0, 2, 0⟩])) = true := by
      decide +kernel
    rcases Exec.exists_of_endsWith hrun with ⟨s, u, hmake, hrest⟩
    rcases Exec.exists_of_endsWith hrest with ⟨answers, v, hsession, htest⟩
    have hrows := (rowConsistent_at_boundary 2 2 .once twoBrokenSession).2 (.idle ⟨4, 1⟩) #[] s u
      #[] v hmake (.after hsession)
    rcases of_decide_eq_true htest with ⟨hphase, hhistory⟩
    exact ⟨s, u, v, hmake, .after hsession, hphase, hhistory, hrows⟩

end BoundedSimplex
