import BoundedSimplex.Proofs.Building
import BoundedSimplex.Proofs.Twins
import Mathlib.Data.List.Find

/-!
# Room for More Rows

A board with room for rows that are never taken.

The slacks of such rows lie at zero, are at least zero, and own their rows. They
are basic, so no column is ever theirs; they are not broken, whatever the
tolerance is, because nothing is below itself; and their rows are zero. So the
two scans of an iteration pass over them, the exchange leaves them alone, and the
sums do not reach them. What is on the smaller board is on the larger one at every
moment of a search, and the rest of the larger one never changes.

The tables of the basis are longer on the larger board. They agree as far as the
smaller ones go, and for the owners of rows and columns that follows from the
places of the variables and their roles.

## Main definitions

* `Board.Padded`: A board, and the same with room for more rows.
* `Problem.Padded`: A problem, and the same with room for more constraints.

## Theorems

* `Board.Padded.lockstep`: An iteration makes the same choices on both.
* `Board.Padded.after`: It leads to such boards again.
* `Board.Run.ne_spare`, `Board.Run.value_spare`: The slack of a row that is not taken.
* `Problem.Padded.board`: The searches begin on such boards.
-/

namespace BoundedSimplex

/-- The first number that passes a test is the same in a longer range, if none of
    the others passes. -/
theorem find?_range_of_le {n m : Nat} {p q : Nat → Bool} (h : n ≤ m)
    (hsame : ∀ v < n, q v = p v) (hnone : ∀ v, n ≤ v → v < m → q v = false) :
    (List.range m).find? q = (List.range n).find? p := by
  rcases Nat.exists_eq_add_of_le h with ⟨k, rfl⟩
  have hlow : (List.range n).find? q = (List.range n).find? p :=
    List.find?_congr fun v hv => hsame v (List.mem_range.mp hv)
  have hhigh : ((List.range k).map (n + ·)).find? q = none := by
    rw [List.find?_eq_none]
    intro v hv
    rcases List.mem_map.mp hv with ⟨i, hi, rfl⟩
    rw [hnone (n + i) (Nat.le_add_right n i)
      (Nat.add_lt_add_left (List.mem_range.mp hi) n)]
    exact Bool.false_ne_true
  rw [List.range_add, List.find?_append, hlow, hhigh, Option.or_none]

namespace Board

variable {α : Type} [Scalar α]

/-- The board `b'` is `b` with room for more rows. The slacks of these rows are as they were
    at first, that is nonnegative and zero, and so they are never broken. -/
structure Padded (b b' : Board α) : Prop where
  maxRows_le : b.maxRows ≤ b'.maxRows
  numRows : b'.numRows = b.numRows
  numCols : b'.numCols = b.numCols
  tolerance : b'.tolerance = b.tolerance
  coeff : ∀ r < b.maxRows, ∀ c < b.numCols, b'.coeff r c = b.coeff r c
  place : ∀ v < b.numVars, b'.basis.placeOf v = b.basis.placeOf v
  interval : ∀ v < b.numVars, b'.interval v = b.interval v
  value : ∀ v < b.numVars, b'.value v = b.value v
  role : ∀ v < b.numVars, b'.role v = b.role v
  spare : ∀ r, b.maxRows ≤ r → r < b'.maxRows →
    b'.interval (b'.numCols + r) = .nonnegative ∧ b'.value (b'.numCols + r) = 0

namespace Padded

variable {b b' : Board α} {leaving entering : Nat} {sum : Summation α}

theorem numVars_le (h : b.Padded b') : b.numVars ≤ b'.numVars := by
  rw [numVars, numVars, h.numCols]
  exact Nat.add_le_add_left h.maxRows_le _

/-- A variable that is not on the smaller board is the slack of a row that is not
    there either. -/
theorem exists_row (h : b.Padded b') {v : Nat} (hle : b.numVars ≤ v) (hlt : v < b'.numVars) :
    ∃ r, b.maxRows ≤ r ∧ r < b'.maxRows ∧ v = b'.numCols + r := by
  have hcols := h.numCols
  rw [numVars] at hle hlt
  exact ⟨v - b'.numCols, by omega, by omega, by omega⟩

/-- The slack of a row that is on the larger board alone owns that row. -/
theorem spare_basic (h : b.Padded b') (hv : b.Valid) (hv' : b'.Valid) {r : Nat}
    (hr : b.maxRows ≤ r) (hr' : r < b'.maxRows) :
    b'.basis.placeOf (b'.numCols + r) = r ∧ b'.role (b'.numCols + r) = .basic := by
  have hrows : b'.numRows ≤ r := by
    rw [h.numRows]
    exact Nat.le_trans hv.numRows_le hr
  have hrow := (hv'.basis.row r hr').2
  rw [hv'.spare r hrows hr'] at hrow
  exact hrow

/-- The owners of the columns are the same. -/
theorem inCol (h : b.Padded b') (hv : b.Valid) (hv' : b'.Valid) {c : Nat} (hc : c < b.numCols) :
    b'.basis.inCol c = b.basis.inCol c := by
  rcases hv.basis.col c hc with ⟨hlt, hplace, hrole⟩
  have hback := (hv'.basis.nonbasic _ (Nat.lt_of_lt_of_le hlt h.numVars_le)
    ((h.role _ hlt).trans hrole)).2
  rw [h.place _ hlt, hplace] at hback
  exact hback

/-- The owners of the rows are the same. -/
theorem inRow (h : b.Padded b') (hv : b.Valid) (hv' : b'.Valid) {r : Nat} (hr : r < b.maxRows) :
    b'.basis.inRow r = b.basis.inRow r := by
  rcases hv.basis.row r hr with ⟨hlt, hplace, hrole⟩
  have hback := (hv'.basis.basic _ (Nat.lt_of_lt_of_le hlt h.numVars_le)
    ((h.role _ hlt).trans hrole)).2
  rw [h.place _ hlt, hplace] at hback
  exact hback

/-! ### The scans -/

theorem isBroken (h : b.Padded b') {v : Nat} (hv : v < b.numVars) :
    b'.isBroken v = b.isBroken v := by
  rw [Board.isBroken, Board.isBroken, h.interval v hv, h.value v hv, h.tolerance]

theorem correction (h : b.Padded b') (hl : leaving < b.numVars) :
    b'.correction leaving = b.correction leaving := by
  rw [Board.correction, Board.correction, h.interval _ hl, h.value _ hl]

theorem cross (h : b.Padded b') (hv : b.Valid) (hl : leaving < b.numVars)
    (hlb : b.role leaving = .basic) (he : entering < b.numVars)
    (hen : b.role entering = .nonbasic) : b'.cross leaving entering = b.cross leaving entering := by
  rw [Board.cross, Board.cross, h.place _ hl, h.place _ he]
  exact h.coeff _ (hv.basis.basic _ hl hlb).1 _ (hv.basis.nonbasic _ he hen).1

theorem suits (h : b.Padded b') (hv : b.Valid) (hl : leaving < b.numVars)
    (hlb : b.role leaving = .basic) {v : Nat} (hlt : v < b.numVars)
    (hrole : b.role v = .nonbasic) : b'.suits leaving v = b.suits leaving v := by
  rw [Board.suits, Board.suits, h.correction hl, h.cross hv hl hlb hlt hrole, h.interval v hlt,
    h.value v hlt]

variable [StrictScalar α]

/-- A slack that lies at zero and is at least zero is not broken. -/
theorem not_isBroken_spare (h : b.Padded b') {r : Nat} (hr : b.maxRows ≤ r) (hr' : r < b'.maxRows) :
    b'.isBroken (b'.numCols + r) = false := by
  rcases h.spare r hr hr' with ⟨hinterval, hvalue⟩
  rw [Board.isBroken, hinterval, hvalue]
  simp only [Interval.isBroken, Interval.nonnegative, Option.any_some, Option.any_none,
    StrictScalar.lt_self, Bool.or_self, Bool.and_false]

theorem firstBroken_eq (h : b.Padded b') : b'.firstBroken = b.firstBroken := by
  refine find?_range_of_le h.numVars_le (fun v hlt => ?_) fun v hle hlt => ?_
  · rw [h.role v hlt, h.isBroken hlt]
  · rcases h.exists_row hle hlt with ⟨r, hr, hr', rfl⟩
    rw [h.not_isBroken_spare hr hr', Bool.and_false]

omit [StrictScalar α] in
theorem firstSuitable_eq (h : b.Padded b') (hv : b.Valid) (hv' : b'.Valid)
    (hl : leaving < b.numVars) (hlb : b.role leaving = .basic) :
    b'.firstSuitable leaving = b.firstSuitable leaving := by
  refine find?_range_of_le h.numVars_le (fun v hlt => ?_) fun v hle hlt => ?_
  · rw [h.role v hlt]
    by_cases hrole : b.role v = .nonbasic
    · rw [h.suits hv hl hlb hlt hrole]
    · rw [decide_eq_false hrole, Bool.false_and, Bool.false_and]
  · rcases h.exists_row hle hlt with ⟨r, hr, hr', rfl⟩
    rw [(h.spare_basic hv hv' hr hr').2]
    rfl

/-- An iteration makes the same choices on both boards. Additional slacks are never broken
    and never suitable, and all other variables have the same numbers on both. -/
theorem lockstep (h : b.Padded b') (hv : b.Valid) (hv' : b'.Valid) : Lockstep b b' where
  left := hv
  right := hv'
  numCols := h.numCols
  broken := h.firstBroken_eq
  suitable := by
    intro leaving hb
    rcases firstBroken_eq_some hb with ⟨hl, hlb, -⟩
    exact h.firstSuitable_eq hv hv' hl hlb

omit [StrictScalar α]

/-! ### The moves -/

theorem withValue (h : b.Padded b') {v : Nat} (hlt : v < b.numVars) (x : α) :
    (b.withValue v x).Padded (b'.withValue v x) :=
  { h with
    value := by
      intro w hw
      simp only [Board.withValue, h.value w hw]
    spare := by
      intro r hr hr'
      -- The slacks beyond the smaller board come after all of its variables, so none of them is
      -- written.
      have hne : b'.numCols + r ≠ v := by
        have hcols := h.numCols
        rw [numVars] at hlt
        have hr : b.maxRows ≤ r := hr
        omega
      simp only [Board.withValue, if_neg hne]
      exact h.spare r hr hr' }

theorem corrected (h : b.Padded b') (hv : b.Valid) (hl : leaving < b.numVars)
    (hlb : b.role leaving = .basic) (he : entering < b.numVars)
    (hen : b.role entering = .nonbasic) :
    (b.corrected leaving entering).Padded (b'.corrected leaving entering) := by
  have hmoved : b'.moved leaving entering = b.moved leaving entering := by
    rw [moved, moved, h.correction hl, h.value _ he, h.cross hv hl hlb he hen]
  have hlanding : b'.landing leaving = b.landing leaving := by
    rw [landing, landing, h.correction hl, h.value _ hl]
  rw [Board.corrected, Board.corrected, hmoved, hlanding]
  exact (h.withValue he _).withValue hl _

theorem exchanged (h : b.Padded b') (hv : b.Valid) (hv' : b'.Valid) (hl : leaving < b.numVars)
    (hlb : b.role leaving = .basic) (he : entering < b.numVars)
    (hen : b.role entering = .nonbasic) :
    (b.exchanged leaving entering).Padded (b'.exchanged leaving entering) :=
  { h with
    coeff := by
      intro r hr c hc
      -- Both ends of the exchange are on the smaller board, and so is every cell that the new
      -- cell is computed from.
      have hrow := (hv.basis.basic _ hl hlb).1
      have hcol := (hv.basis.nonbasic _ he hen).1
      simp only [Board.exchanged] at hr hc ⊢
      rw [h.place _ hl, h.place _ he, h.numRows]
      simp only [exchangedCell, h.coeff r hr c hc, h.coeff r hr _ hcol, h.coeff _ hrow c hc,
        h.coeff _ hrow _ hcol]
    place := by
      intro v hlt
      have hle := h.numVars_le
      simp only [Board.exchanged]
      rw [hv'.basis.placeOf_swapped (Nat.lt_of_lt_of_le hlt hle), hv.basis.placeOf_swapped hlt,
        h.place _ hl, h.place _ he, h.place v hlt]
    role := by
      intro v hlt
      simp only [Board.exchanged, exchangedRole, h.role v hlt] }

theorem products (h : b.Padded b') (hv : b.Valid) (hv' : b'.Valid) {r : Nat} (hr : r < b.maxRows) :
    b'.products r = b.products r := by
  funext c
  rw [Board.products, Board.products, h.numCols]
  by_cases hc : c < b.numCols
  · rw [if_pos hc, if_pos hc, h.inCol hv hv' hc, h.value _ (hv.basis.col c hc).1, h.coeff r hr c hc]
  · rw [if_neg hc, if_neg hc]

theorem recomputed (h : b.Padded b') (hv : b.Valid) (hv' : b'.Valid) :
    (b.recomputed sum).Padded (b'.recomputed sum) :=
  { h with
    value := by
      intro v hlt
      have hiff : b'.OwnsOutside [] v ↔ b.OwnsOutside [] v := by
        have hlt' : v < b'.numVars := Nat.lt_of_lt_of_le hlt h.numVars_le
        rw [OwnsOutside, OwnsOutside, h.role v hlt, h.place v hlt, h.numRows]
        exact and_congr_left fun _ => iff_of_true hlt' hlt
      simp only [Board.recomputed, recomputedOutside]
      by_cases howns : b.OwnsOutside [] v
      · rw [if_pos howns, if_pos (hiff.mpr howns), h.numCols, h.place v hlt,
          h.products hv hv' (Nat.lt_of_lt_of_le howns.2.2.1 hv.numRows_le)]
      · rw [if_neg howns, if_neg (fun h' => howns (hiff.mp h')), h.value v hlt]
    spare := by
      intro r hr hr'
      refine ⟨(h.spare r hr hr').1, ?_⟩
      -- The row of this slack is not taken.
      have hnot : ¬ b'.OwnsOutside [] (b'.numCols + r) := by
        intro howns
        have hlt := howns.2.2.1
        rw [(h.spare_basic hv hv' hr hr').1, h.numRows] at hlt
        have hle := Nat.le_trans hv.numRows_le hr
        omega
      exact (if_neg hnot).trans (h.spare r hr hr').2 }

/-- An iteration leads to boards of the same kind. Rows that are not taken have no part in
    any of the moves. -/
theorem after [StrictScalar α] (h : b.Padded b') (hv : b.Valid) (hv' : b'.Valid)
    (hex : b.Exchanges leaving entering) :
    (b.after sum leaving entering).Padded (b'.after sum leaving entering) := by
  have hex' := (h.lockstep hv hv').exchanges hex
  have hcorrected := h.corrected hv hex.leaving_lt hex.leaving_basic hex.entering_lt
    hex.entering_nonbasic
  have hexchanged := hcorrected.exchanged hv.corrected hv'.corrected hex.leaving_lt
    hex.leaving_basic hex.entering_lt hex.entering_nonbasic
  exact hexchanged.recomputed (hv.exchangedAfter hex) (hv'.exchangedAfter hex')

end Padded

/-! ### Rows that are not taken -/

namespace Run

variable [StrictScalar α] {sum : Summation α} {b₀ b : Board α} {l : List (Nat × Nat)} {r : Nat}

/-- The slack of a row that is not taken takes part in no exchange of a search. It cannot
    leave, since all its coefficients are zero, and it never enters because it never left. -/
theorem ne_spare (h : Run sum b₀ l b) (hv : b₀.Valid) (hr : b₀.numRows ≤ r)
    (hrm : r < b₀.maxRows) : ∀ e ∈ l, b₀.numCols + r ≠ e.1 ∧ b₀.numCols + r ≠ e.2 := by
  induction h with
  | start => exact fun e he => absurd he List.not_mem_nil
  | @step l b b' leaving entering hrun hnext ih =>
      rcases next_eq_exchange_iff.mp hnext with ⟨hex, rfl⟩
      have hsame := hrun.same
      intro e he
      rcases List.mem_append.mp he with hold | hnew
      · exact ih e hold
      · rw [List.mem_singleton.mp hnew, ← hsame.numCols]
        exact hex.ne_spare (hrun.valid hv) (by rw [hsame.numRows]; exact hr)
          (by rw [hsame.maxRows]; exact hrm)

/-- It stays where it was. Only the rows that are taken are recomputed. -/
theorem value_spare (h : Run sum b₀ l b) (hv : b₀.Valid) (hr : b₀.numRows ≤ r)
    (hrm : r < b₀.maxRows) : b.value (b₀.numCols + r) = b₀.value (b₀.numCols + r) := by
  induction h with
  | start => rfl
  | @step l b b' leaving entering hrun hnext ih =>
      rcases next_eq_exchange_iff.mp hnext with ⟨hex, rfl⟩
      have hsame := hrun.same
      rw [← ih, ← hsame.numCols]
      exact value_after_spare (hrun.valid hv) hex (by rw [hsame.numRows]; exact hr)
        (by rw [hsame.maxRows]; exact hrm)

end Run

end Board

/-! ### Problems -/

namespace Problem

variable {α : Type}

/-- The problem `p'` is `p` with room for more constraints. The bounds of their
    slacks are as they were at first. -/
structure Padded [Scalar α] (p p' : Problem α) : Prop where
  maxRows_le : p.maxRows ≤ p'.maxRows
  numCols : p'.numCols = p.numCols
  rows : p'.rows = p.rows
  bounds : ∀ v < p.numVars, p'.bounds v = p.bounds v
  spare : ∀ v, p.numVars ≤ v → p'.bounds v = .nonnegative

variable [Scalar α] {p p' : Problem α}

theorem padded_blank {m n : Nat} (h : m ≤ n) (numCols : Nat) :
    (blank m numCols : Problem α).Padded (blank n numCols) :=
  ⟨h, rfl, rfl, fun _ _ => rfl, fun _ _ => rfl⟩

namespace Padded

theorem numVars_le (h : p.Padded p') : p.numVars ≤ p'.numVars := by
  rw [numVars, numVars, h.numCols]
  exact Nat.add_le_add_left h.maxRows_le _

/-- Both take the row of a constraint while there is room on the smaller one, or
    both refuse it for its width. -/
theorem constraint (h : p.Padded p') (hroom : p.rows.length < p.maxRows) (coeffs : Array α) :
    (p.call (.constraint coeffs)).Padded (p'.call (.constraint coeffs)) := by
  have hroom' : p'.rows.length < p'.maxRows := by
    rw [h.rows]
    exact Nat.lt_of_lt_of_le hroom h.maxRows_le
  simp only [call, h.numCols, hroom, hroom', and_true]
  by_cases hsize : coeffs.size = p.numCols
  · rw [if_pos hsize, if_pos hsize]
    exact ⟨h.maxRows_le, rfl, by rw [h.rows], h.bounds, h.spare⟩
  · rw [if_neg hsize, if_neg hsize]
    exact h

/-- Both change the bounds of a variable that is on the smaller one. -/
theorem edit (h : p.Padded p') {v : Nat} (hv : v < p.numVars) (e : BoundEdit α) :
    (p.call (.bounds v e)).Padded (p'.call (.bounds v e)) := by
  simp only [call, if_pos hv, if_pos (Nat.lt_of_lt_of_le hv h.numVars_le)]
  refine ⟨h.maxRows_le, h.numCols, h.rows, fun u hu => ?_, fun u hu => ?_⟩
  · simp only [h.bounds v hv, h.bounds u hu]
  · have hne : u ≠ v := by
      rintro rfl
      exact absurd hv (Nat.not_lt_of_le hu)
    simp only [if_neg hne]
    exact h.spare u hu

/-- The searches begin on boards of this kind, as slacks that nobody bounds are nonnegative
    and zero. -/
theorem board (h : p.Padded p') (tolerance : α) :
    (p.board tolerance).Padded (p'.board tolerance) where
  maxRows_le := h.maxRows_le
  numRows := congrArg List.length h.rows
  numCols := h.numCols
  tolerance := rfl
  coeff := by
    intro r _ c _
    simp only [Problem.board, coeff, h.rows]
  place := by
    intro v hlt
    simp only [Problem.board, Board.numVars, h.numCols] at hlt ⊢
    -- Columns stand where they stood, and rows of the smaller board too: they come first.
    by_cases hv : v < p.numCols
    · rw [Basis.placeOf_ofDimensions_col hv, Basis.placeOf_ofDimensions_col hv]
    · rcases Nat.exists_eq_add_of_le (Nat.le_of_not_lt hv) with ⟨r, rfl⟩
      have hr : r < p.maxRows := Nat.lt_of_add_lt_add_left hlt
      rw [Basis.placeOf_ofDimensions_row hr,
        Basis.placeOf_ofDimensions_row (Nat.lt_of_lt_of_le hr h.maxRows_le)]
  interval := h.bounds
  value := fun _ _ => rfl
  role := by
    intro v _
    simp only [Problem.board, h.numCols]
  spare := by
    intro r hr _
    refine ⟨h.spare _ ?_, rfl⟩
    simp only [Problem.board, numVars, h.numCols] at hr ⊢
    exact Nat.add_le_add_left hr _

end Padded

end Problem

end BoundedSimplex
