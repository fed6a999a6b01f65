import Mathlib.Algebra.Order.BigOperators.Group.Finset
import Mathlib.Tactic.Linarith
import BoundedSimplex.Proofs.Equations

/-!
# Why a System Has No Solution

Over exact numbers a search that finds no variable to exchange has found a
proof.

The row of a broken variable states it as a combination of column variables.
If none of them can take part in the correction, then each of them lies where
every value its bounds allow moves the combination the wrong way or not at
all, and every value the bounds of the broken variable allow lies the right
way. Both cannot happen at once. `Correction.sign` is the direction of the
correction as a number, so that the two directions are one argument.

The row is the one of a tableau in the middle of a search, but the equations
of that tableau are the ones that were added, and an assignment of the caller
satisfies the one exactly if it satisfies the other. The tolerance plays no
part: a broken variable violates its bound, by however much.

## Main definitions

* `Correction.sign`: The direction of a correction as a number.
* `Problem.Satisfies`: An assignment within all bounds that satisfies all
  equations.

## Theorems

* `Correction.sign_mul_pos`: What the bounds of a broken variable allow.
* `Correction.sign_mul_nonpos`: What the bounds of a column variable allow.
* `Board.not_within_of_unsat`: A row that proves it.
* `Sequential.unsatisfiable_of_solve`: A search that answers no is right.
-/

namespace BoundedSimplex

open Finset

theorem lt_iff_exact {x y : Rat} : Scalar.lt x y = true ↔ x < y := by
  show decide (x < y) = true ↔ x < y
  exact decide_eq_true_iff

namespace Interval

variable {i : Interval Rat} {x y tolerance : Rat}

theorem contains_iff : i.Contains y ↔ (∀ l ∈ i.lower, l ≤ y) ∧ ∀ u ∈ i.upper, y ≤ u := by
  have hlt : ∀ x y : Rat, Scalar.lt x y = false ↔ y ≤ x := by
    intro x y
    rw [← Bool.not_eq_true, lt_iff_exact, not_lt]
  simp only [Contains, Scalar.gt, hlt]

/-- A value without room upwards lies at or above its upper bound. -/
theorem le_of_not_canIncrease (h : i.canIncrease x = false) : ∃ u, i.upper = some u ∧ u ≤ x := by
  cases hu : i.upper with
  | none =>
      simp only [canIncrease, hu, Option.all_none, Bool.true_eq_false] at h
  | some u =>
      simp only [canIncrease, hu, Option.all_some] at h
      exact ⟨u, rfl, by rwa [← Bool.not_eq_true, lt_iff_exact, not_lt] at h⟩

/-- A value without room downwards lies at or below its lower bound. -/
theorem le_of_not_canDecrease (h : i.canDecrease x = false) : ∃ l, i.lower = some l ∧ x ≤ l := by
  cases hl : i.lower with
  | none =>
      simp only [canDecrease, hl, Option.all_none, Bool.true_eq_false] at h
  | some l =>
      simp only [canDecrease, hl, Option.all_some, Scalar.gt] at h
      exact ⟨l, rfl, by rwa [← Bool.not_eq_true, lt_iff_exact, not_lt] at h⟩

end Interval

namespace Correction

variable {i : Interval Rat} {c : Correction Rat} {x y tolerance coeff : Rat}

/-- The direction of a correction as a number, one or minus one. -/
def sign (c : Correction Rat) : Rat :=
  match c.direction with
  | .increase => 1
  | .decrease => -1

/-- A broken value lies strictly outside one of its bounds, and the correction
    leads exactly to that bound. The lower one is preferred. -/
theorem ofBroken_cases (h : i.isBroken tolerance x = true) :
    (∃ l, i.lower = some l ∧ x < l ∧ ofBroken i x = ⟨.increase, l - x⟩) ∨
      ∃ u, i.upper = some u ∧ u < x ∧ (∀ l, i.lower = some l → l ≤ x) ∧
        ofBroken i x = ⟨.decrease, x - u⟩ := by
  simp only [Interval.isBroken, Bool.and_eq_true, Bool.or_eq_true] at h
  cases hl : i.lower.filter (Scalar.lt x) with
  | some l =>
      rcases Option.filter_eq_some_iff.mp hl with ⟨hsome, hlt⟩
      exact .inl ⟨l, hsome, lt_iff_exact.mp hlt, by rw [ofBroken, hl]⟩
  | none =>
      have hnot : ∀ l, i.lower = some l → Scalar.lt x l = false := by
        intro l hsome
        rw [hsome] at hl
        exact Bool.not_eq_true _ ▸ Option.filter_eq_none_iff.mp hl l rfl
      have hany : i.lower.any (Scalar.lt x) = false := by
        cases hlo : i.lower with
        | none => rfl
        | some l => exact hnot l hlo
      rw [hany] at h
      -- So it is the upper bound that is violated.
      cases hu : i.upper with
      | none =>
          simp only [hu, Option.any_none, Bool.false_eq_true, or_self, and_false] at h
      | some u =>
          rw [hu, Option.any_some] at h
          refine .inr ⟨u, rfl, ?_, fun l hsome => ?_, by rw [ofBroken, hl, hu]; rfl⟩
          · rcases h.2 with hfalse | hlt
            · exact absurd hfalse (by decide)
            · exact lt_iff_exact.mp hlt
          · exact not_lt.mp fun hlt => absurd (lt_iff_exact.mpr hlt) (by rw [hnot l hsome]; decide)

/-- A broken value is corrected towards every value its bounds allow. This also holds if
    they allow none. -/
theorem sign_mul_pos (h : i.isBroken tolerance x = true) (hy : i.Contains y) :
    0 < (ofBroken i x).sign * (y - x) := by
  rcases Interval.contains_iff.mp hy with ⟨hlow, hupp⟩
  rcases ofBroken_cases h with ⟨l, hl, hlt, heq⟩ | ⟨u, hu, hlt, -, heq⟩
  · have := hlow l hl
    rw [heq, sign]
    linarith
  · have := hupp u hu
    rw [heq, sign]
    linarith

/-- A column variable can take part if it has room in the direction of the
    correction or against it, as the sign of its coefficient calls for. -/
theorem accepts_exact_iff {inc dec : Bool} : c.accepts coeff inc dec = true ↔
    (inc = true ∧ 0 < c.sign * coeff) ∨ (dec = true ∧ c.sign * coeff < 0) := by
  rw [accepts_iff, sign]
  cases c.direction with
  | increase => simp only [Scalar.gt, lt_iff_exact, one_mul]
  | decrease => simp only [Scalar.gt, lt_iff_exact, neg_mul, one_mul, neg_pos, neg_lt_zero]

/-- A column variable that cannot take part moves the combination away from
    the correction, or not at all, wherever its bounds allow it to go. -/
theorem sign_mul_nonpos (h : c.accepts coeff (i.canIncrease x) (i.canDecrease x) = false)
    (hy : i.Contains y) : c.sign * (coeff * (y - x)) ≤ 0 := by
  rcases Interval.contains_iff.mp hy with ⟨hlow, hupp⟩
  rw [← Bool.not_eq_true, accepts_exact_iff, not_or, not_and, not_and] at h
  -- In the direction that the coefficient calls for there is no room.
  have hup : 0 < c.sign * coeff → y ≤ x := by
    intro hpos
    rcases Interval.le_of_not_canIncrease (Bool.eq_false_iff.mpr fun hinc => h.1 hinc hpos) with
      ⟨u, hu, hle⟩
    exact (hupp u hu).trans hle
  have hdown : c.sign * coeff < 0 → x ≤ y := by
    intro hneg
    rcases Interval.le_of_not_canDecrease (Bool.eq_false_iff.mpr fun hdec => h.2 hdec hneg) with
      ⟨l, hl, hle⟩
    exact hle.trans (hlow l hl)
  rw [← mul_assoc]
  rcases lt_trichotomy (c.sign * coeff) 0 with hneg | hzero | hpos
  · exact mul_nonpos_of_nonpos_of_nonneg hneg.le (sub_nonneg.mpr (hdown hneg))
  · rw [hzero, zero_mul]
  · exact mul_nonpos_of_nonneg_of_nonpos hpos.le (sub_nonpos.mpr (hup hpos))

end Correction

namespace Board

variable {b : Board Rat} {σ : Nat → Rat}

/-- All values lie within their bounds. -/
def Within (b : Board Rat) (σ : Nat → Rat) : Prop := ∀ v < b.numVars, (b.interval v).Contains (σ v)

/-- The difference of two combinations of a row. -/
theorem rowSum_sub (σ τ : Nat → Rat) (r : Nat) : b.rowSum σ r - b.rowSum τ r
    = ∑ c ∈ range b.numCols, b.coeff r c * (σ (b.basis.inCol c) - τ (b.basis.inCol c)) := by
  rw [rowSum, rowSum, ← sum_sub_distrib]
  exact sum_congr rfl fun c _ => (mul_sub _ _ _).symm

/-- If nothing suits a broken variable, its row excludes every assignment within the bounds:
    what the variable would have to gain is a sum of terms none of which has the right sign. -/
theorem not_within_of_unsat {leaving : Nat} (hv : b.Valid)
    (hvalue : ∀ r < b.maxRows, b.Row b.value r) (hb : b.firstBroken = some leaving)
    (hs : b.firstSuitable leaving = none) (hrow : b.Row σ (b.basis.placeOf leaving)) :
    ¬ b.Within σ := by
  intro hwithin
  rcases firstBroken_eq_some hb with ⟨hl, hlb, hbroken, -⟩
  rcases hv.basis.basic leaving hl hlb with ⟨hplace, howner⟩
  -- The row is satisfied by the values and by the assignment, so their difference satisfies it
  -- too.
  have hold := hvalue _ hplace
  rw [Row, howner] at hrow hold
  -- The assignment is within the bounds that the value breaks: it lies on the side to which the
  -- correction goes.
  have hpos : 0 < (b.correction leaving).sign * (σ leaving - b.value leaving) :=
    Correction.sign_mul_pos hbroken (hwithin leaving hl)
  -- But each column can only move the other way. A column that is at a bound on the useful side
  -- is exactly one that does not suit.
  have hnonpos : (b.correction leaving).sign * (σ leaving - b.value leaving) ≤ 0 := by
    rw [hrow, hold, rowSum_sub, mul_sum]
    refine sum_nonpos fun c hc => ?_
    rcases hv.basis.col c (mem_range.mp hc) with ⟨hlt, hcol, hrole⟩
    have hno : b.suits leaving (b.basis.inCol c) = false := firstSuitable_eq_none hs hlt hrole
    rw [suits, cross, hcol] at hno
    exact Correction.sign_mul_nonpos hno (hwithin _ hlt)
  exact absurd hpos (not_lt.mpr hnonpos)

end Board

/-- An assignment within all bounds that satisfies all equations as they were added. The
    slack of a row that was not added is zero, as such a row has no coefficients. No
    tolerance is allowed for: this is about the system itself, and not about what a search
    takes for broken. -/
structure Problem.Satisfies (p : Problem Rat) (σ : Nat → Rat) : Prop where
  solves : p.Solves σ
  spare : ∀ r, p.rows.length ≤ r → r < p.maxRows → σ (p.numCols + r) = 0
  within : ∀ v < p.numVars, (p.bounds v).Contains (σ v)

namespace Board

/-- The values a search begins with satisfy every row. -/
theorem row_value_board (p : Problem Rat) (tolerance : Rat) :
    ∀ r < p.maxRows, (p.board tolerance).Row (p.board tolerance).value r := by
  intro r _
  show (0 : Rat) = ∑ c ∈ range p.numCols, p.coeff r c * 0
  simp only [mul_zero, sum_const_zero]

/-- A search whose board proves that nothing satisfies it began with a problem
    that nothing satisfies. -/
theorem Run.unsatisfiable {p : Problem Rat} {tolerance : Rat} {l : List (Nat × Nat)} {b : Board Rat}
    (hp : p.rows.length ≤ p.maxRows) (h : Run leftSum (p.board tolerance) l b)
    (hnext : b.next leftSum = .verdict false) (σ : Nat → Rat) : ¬ p.Satisfies σ := by
  intro hsat
  rcases next_eq_unsat_iff.mp hnext with ⟨leaving, hb, hs⟩
  have hv₀ := Problem.valid_board hp tolerance
  have hv := h.valid hv₀
  have hsame := h.same
  rcases firstBroken_eq_some hb with ⟨hl, hlb, -, -⟩
  rcases hv.basis.basic leaving hl hlb with ⟨hplace, -⟩
  refine not_within_of_unsat (σ := σ) hv (h.row_value hv₀ (row_value_board p tolerance)) hb hs ?_ ?_
  -- The row of the broken variable is one that was added, or that of a slack whose row was never
  -- taken. In the second case it says that the slack is zero, which a satisfying assignment is
  -- asked for.
  · by_cases hrow : b.basis.placeOf leaving < b.numRows
    · exact (h.solves_iff hv₀).mpr ((Problem.solves_board_iff hp).mpr hsat.solves) _ hrow
    · rw [hv.row_spare_iff (Nat.le_of_not_lt hrow) hplace]
      rw [hsame.numRows] at hrow
      rw [hsame.maxRows] at hplace
      rw [hsame.numCols]
      exact hsat.spare _ (Nat.le_of_not_lt hrow) hplace
  · intro v hlt
    rw [hsame.interval]
    rw [hsame.numVars] at hlt
    exact hsat.within v hlt

end Board

namespace Sequential

variable {τ : Type} {maxRows numCols : Nat} {config : Config Rat} {calls : List (BuildCall Rat)}
  {t u : Traced τ} {s : Solver (Sequential Rat) Rat} {j : Journal}
  {t₁ : Traced (Solver (Sequential Rat) Rat)}

/-- A search over exact numbers that answers no is right: nothing satisfies
    the equations as they were added together with all bounds. -/
theorem unsatisfiable_of_solve (hmake : Solver.sequential maxRows numCols config t = .ok s u)
    (hbuild : Solver.build calls ⟨s, j⟩ = .ok () t₁) {fuel : Nat}
    {v : Traced (Solver (Sequential Rat) Rat)}
    (hsolve : Solver.solve fuel t₁ = .ok false v) (σ : Nat → Rat) :
    ¬ (Problem.ofCalls maxRows numCols calls).Satisfies σ := by
  have hend := ending_of_build hmake hbuild fuel
  rw [hsolve] at hend
  cases hend with
  | verdict hrun _ hnext =>
      exact hrun.unsatisfiable (Problem.length_rows_ofCalls maxRows numCols calls) hnext σ

/-- A bound of a variable and the one of its constraint exclude each other. -/
theorem unsatisfiable_of_solve_crossed :
    Exec.value? (Solver.solve 2 crossedSolver) = some false ∧
      ∀ σ : Nat → Rat, ¬ (Problem.ofCalls 1 1 crossedCalls).Satisfies σ := by
  have hsolve : Exec.value? (Solver.solve 2 crossedSolver) = some false := by decide +kernel
  exact ⟨hsolve, unsatisfiable_of_solve sequential_exactSolver build_crossedSolver
    (Exec.eq_ok_of_value? hsolve)⟩

end Sequential

end BoundedSimplex
