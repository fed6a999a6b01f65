import BoundedSimplex.Proofs.Bijection
import BoundedSimplex.Proofs.Exchange
import BoundedSimplex.Correction
import BoundedSimplex.Number.Decimal

/-!
# The Board

The search apart from what carries it out.

One engine keeps values in a table and another in the memory of a device, but
both make the same moves. A board is what there is to know at one moment,
whatever holds it: coefficients, the basis, bounds, values and roles. The
moves are functions on boards, and `Board.next` is one iteration: the verdict,
or the board after the lowest broken basic variable was corrected, exchanged
with the lowest variable that suits it, and all rows that are taken were
recomputed. What is proved of `next` holds of every engine that follows it.

The one thing in which engines differ is how they add up a row. In floating
point the order of an addition shows, so the sum is a parameter, `Summation`.

`Board.Valid` is the bookkeeping that every move relies on and keeps. The
basis agrees with the roles; rows that are not taken are zero and owned by
their slacks. Such a row is never exchanged, because a zero coefficient suits
no correction. That is the only thing that has to be known of the numbers,
`StrictScalar`, and it holds of rounded numbers as well as of exact ones.

## Main definitions

* `Board`: All there is to know at one moment of a search.
* `Board.firstBroken`, `Board.firstSuitable`: The two scans.
* `Board.corrected`, `Board.exchanged`, `Board.recomputed`: The moves.
* `Board.next`: One iteration.
* `Board.Valid`: The bookkeeping.
* `Board.Run`: The boards of a search, with the exchanges that led there.

## Theorems

* `Board.next_eq_exchange_iff`: What an iteration without a verdict did.
* `Board.Valid.after`: An iteration keeps the bookkeeping.
* `Board.value_after_nonbasic`: The values that an iteration does not recompute.
* `Board.Run.valid`, `Board.Run.same`: What holds during the whole search.
-/

namespace BoundedSimplex

/-- Nothing is strictly below itself. -/
class StrictScalar (α : Type) [Scalar α] : Prop where
  lt_self (x : α) : Scalar.lt x x = false

instance : StrictScalar Binary32 where
  lt_self x := by
    show Binary32.lt x x = false
    simp only [Binary32.lt, Int.lt_irrefl, decide_false, Bool.and_false]

instance : StrictScalar Rat where
  lt_self x := by
    show decide (x < x) = false
    exact decide_eq_false Rat.lt_irrefl

/-- How the first `n` of some items are added up. The engines take the same products and
    differ in this only, so it is the one parameter of an iteration. -/
abbrev Summation (α : Type) := (n : Nat) → (Nat → α) → α

/-- All there is to know at one moment of a search, whatever holds it. Rows, columns and
    variables are numbered, and what the functions say of numbers beyond the last one is of
    no importance. Functions rather than tables keep the moves free of sizes: that the
    tables of an engine are long enough is shown once, where the engine is related to its
    board. -/
structure Board (α : Type) where
  maxRows : Nat
  numRows : Nat
  numCols : Nat
  coeff : Nat → Nat → α
  basis : Basis
  interval : Nat → Interval α
  value : Nat → α
  role : Nat → Role
  tolerance : α

/-- What an iteration comes to. It is a value and not an operation: nothing of how an engine
    gets there is left in it. -/
inductive Outcome (α : Type) where
  /-- A verdict. -/
  | verdict (sat : Bool)
  /-- Two variables were exchanged, with the board right afterwards. -/
  | exchange (leaving entering : Nat) (board : Board α)

namespace Board

variable {α : Type}

/-- The problem variables and the slacks. -/
def numVars (b : Board α) : Nat := b.numCols + b.maxRows

/-- The same system: as many rows and columns, the same bounds and the same tolerance. No
    move of a search touches any of this. -/
structure Same (b₁ b : Board α) : Prop where
  maxRows : b₁.maxRows = b.maxRows
  numRows : b₁.numRows = b.numRows
  numCols : b₁.numCols = b.numCols
  interval : b₁.interval = b.interval
  tolerance : b₁.tolerance = b.tolerance

theorem Same.trans {b₁ b₂ b₃ : Board α} (h : b₁.Same b₂) (h' : b₂.Same b₃) : b₁.Same b₃ :=
  ⟨h.maxRows.trans h'.maxRows, h.numRows.trans h'.numRows, h.numCols.trans h'.numCols,
    h.interval.trans h'.interval, h.tolerance.trans h'.tolerance⟩

theorem Same.numVars {b₁ b : Board α} (h : b₁.Same b) : b₁.numVars = b.numVars := by
  rw [Board.numVars, h.numCols, h.maxRows, Board.numVars]

variable [Scalar α] (b : Board α)

/-- A variable violates a bound by more than the tolerance. -/
def isBroken (v : Nat) : Bool := (b.interval v).isBroken b.tolerance (b.value v)

/-- The lowest broken basic variable. Nonbasic variables are not looked at, even if they are
    outside their bounds. -/
def firstBroken : Option Nat :=
  (List.range b.numVars).find? fun v => decide (b.role v = .basic) && b.isBroken v

/-- How a broken variable gets back to the bound it violates. -/
def correction (leaving : Nat) : Correction α :=
  .ofBroken (b.interval leaving) (b.value leaving)

/-- The coefficient of a column variable in the row of a basic one. -/
def cross (leaving entering : Nat) : α :=
  b.coeff (b.basis.placeOf leaving) (b.basis.placeOf entering)

/-- A column variable can take part in the correction of a broken one. -/
def suits (leaving v : Nat) : Bool :=
  (b.correction leaving).accepts (b.cross leaving v) ((b.interval v).canIncrease (b.value v))
    ((b.interval v).canDecrease (b.value v))

/-- The lowest nonbasic variable that suits a broken one. To take the lowest in both scans
    is what keeps the search from going round in circles. -/
def firstSuitable (leaving : Nat) : Option Nat :=
  (List.range b.numVars).find? fun v => decide (b.role v = .nonbasic) && b.suits leaving v

/-- The value at which a correction leaves the broken variable. -/
def landing (leaving : Nat) : α :=
  (b.correction leaving).shift (b.value leaving) (b.correction leaving).delta

/-- The value at which a correction leaves the variable that takes part. -/
def moved (leaving entering : Nat) : α :=
  (b.correction leaving).shift (b.value entering)
    ((b.correction leaving).theta (b.cross leaving entering))

/-- The board with one value replaced. -/
def withValue (v : Nat) (x : α) : Board α :=
  { b with value := fun w => if w = v then x else b.value w }

/-- The board after the correction was carried out: the variable that takes
    part moves first and the broken one last. -/
def corrected (leaving entering : Nat) : Board α :=
  (b.withValue entering (b.moved leaving entering)).withValue leaving (b.landing leaving)

/-- The board after the two variables were exchanged. No value changes, and the equations
    still have the solutions that they had. -/
def exchanged (leaving entering : Nat) : Board α :=
  { b with
    coeff := exchangedCell b.numRows (b.basis.placeOf leaving) (b.basis.placeOf entering) b.coeff
    basis := b.basis.swapped leaving entering
    role := exchangedRole b.role leaving entering }

/-- The products of a row with the values of the column variables, and zero
    beyond the last column. -/
def products (r c : Nat) : α :=
  if c < b.numCols then b.value (b.basis.inCol c) * b.coeff r c else 0

/-- A variable owns a row that is taken, and the row is not among some. -/
def OwnsOutside (rest : List Nat) (v : Nat) : Prop :=
  v < b.numVars ∧ b.role v = .basic ∧ b.basis.placeOf v < b.numRows ∧ b.basis.placeOf v ∉ rest

instance (rest : List Nat) : DecidablePred (b.OwnsOutside rest) :=
  fun _ => inferInstanceAs (Decidable (_ ∧ _ ∧ _ ∧ _))

/-- The board after the basic variables of the rows that are taken were recomputed, except
    for some rows. An engine recomputes one row after the other, and this is the board in
    between, with the rows that are still to come. -/
def recomputedOutside (sum : Summation α) (rest : List Nat) : Board α :=
  { b with value := fun v =>
      if b.OwnsOutside rest v then sum b.numCols (b.products (b.basis.placeOf v))
      else b.value v }

/-- The board after the basic variables of all rows that are taken were recomputed. The
    values of the nonbasic ones determine all others, and this is where they do. -/
def recomputed (sum : Summation α) : Board α := b.recomputedOutside sum []

/-- One iteration. It is a function: on one board there is one thing for a search to do, and
    engines can only differ in the sum. -/
def next (sum : Summation α) : Outcome α :=
  match b.firstBroken with
  | none => .verdict true
  | some leaving =>
    match b.firstSuitable leaving with
    | none => .verdict false
    | some entering =>
      .exchange leaving entering
        (((b.corrected leaving entering).exchanged leaving entering).recomputed sum)

/-! ### The scans -/

section Scans

variable {b}

theorem firstBroken_eq_some {v : Nat} (h : b.firstBroken = some v) :
    v < b.numVars ∧ b.role v = .basic ∧ b.isBroken v = true ∧
      ∀ w < v, b.role w = .basic → b.isBroken w = false := by
  simp only [firstBroken, List.find?_range_eq_some, Bool.and_eq_true, decide_eq_true_eq,
    List.mem_range, Bool.not_eq_true', Bool.and_eq_false_imp] at h
  exact ⟨h.2.1, h.1.1, h.1.2, fun w hw hrole => h.2.2 w hw hrole⟩

theorem firstBroken_eq_none (h : b.firstBroken = none) {v : Nat} (hv : v < b.numVars)
    (hrole : b.role v = .basic) : b.isBroken v = false := by
  simp only [firstBroken, List.find?_range_eq_none, Bool.not_eq_true', Bool.and_eq_false_imp,
    decide_eq_true_eq] at h
  exact h v hv hrole

theorem firstSuitable_eq_some {leaving v : Nat} (h : b.firstSuitable leaving = some v) :
    v < b.numVars ∧ b.role v = .nonbasic ∧ b.suits leaving v = true ∧
      ∀ w < v, b.role w = .nonbasic → b.suits leaving w = false := by
  simp only [firstSuitable, List.find?_range_eq_some, Bool.and_eq_true, decide_eq_true_eq,
    List.mem_range, Bool.not_eq_true', Bool.and_eq_false_imp] at h
  exact ⟨h.2.1, h.1.1, h.1.2, fun w hw hrole => h.2.2 w hw hrole⟩

theorem firstSuitable_eq_none {leaving : Nat} (h : b.firstSuitable leaving = none) {v : Nat}
    (hv : v < b.numVars) (hrole : b.role v = .nonbasic) : b.suits leaving v = false := by
  simp only [firstSuitable, List.find?_range_eq_none, Bool.not_eq_true', Bool.and_eq_false_imp,
    decide_eq_true_eq] at h
  exact h v hv hrole

/-- A coefficient that lets a variable take part lies on one side of zero. -/
theorem cross_of_suits {leaving v : Nat} (h : b.suits leaving v = true) :
    Scalar.lt 0 (b.cross leaving v) = true ∨ Scalar.lt (b.cross leaving v) 0 = true := by
  rcases Correction.accepts_iff.mp h with ⟨-, hside⟩ | ⟨-, hside⟩
  all_goals
    cases hdir : (b.correction leaving).direction with
    | increase =>
        rw [hdir] at hside
        simp only [Scalar.gt] at hside
        simp only [hside, true_or, or_true]
    | decrease =>
        rw [hdir] at hside
        simp only [Scalar.gt] at hside
        simp only [hside, true_or, or_true]

end Scans

/-! ### The bookkeeping -/

/-- The bookkeeping every move relies on: the basis agrees with the roles, and rows that are
    not taken are zero and owned by their slacks. Such slacks never suit a correction, so an
    exchange never touches a row that is not taken. -/
structure Valid (b : Board α) : Prop where
  basis : b.basis.Matches b.maxRows b.numCols b.role
  numRows_le : b.numRows ≤ b.maxRows
  zero : ∀ r, b.numRows ≤ r → r < b.maxRows → ∀ c < b.numCols, b.coeff r c = 0
  spare : ∀ r, b.numRows ≤ r → r < b.maxRows → b.basis.inRow r = b.numCols + r

/-- The two variables an iteration exchanges, and why it chose them. Everything else about
    the pair follows from the two scans: that they have opposite roles, own a row that is
    taken and a column, and that their coefficient is not zero. -/
structure Exchanges (b : Board α) (leaving entering : Nat) : Prop where
  broken : b.firstBroken = some leaving
  suitable : b.firstSuitable leaving = some entering

/-- The board after an iteration that exchanged two variables. -/
def after (sum : Summation α) (leaving entering : Nat) : Board α :=
  ((b.corrected leaving entering).exchanged leaving entering).recomputed sum

variable {b} {sum : Summation α} {leaving entering : Nat}

/-- An iteration exchanges two variables if and only if these are the ones that the two
    scans choose, and then the next board is the one after the three moves. -/
theorem next_eq_exchange_iff {b' : Board α} :
    b.next sum = .exchange leaving entering b' ↔
      b.Exchanges leaving entering ∧ b' = b.after sum leaving entering := by
  constructor
  · intro h
    unfold next at h
    split at h
    · cases h
    · rename_i l hl
      split at h
      · cases h
      · rename_i e he
        cases h
        exact ⟨⟨hl, he⟩, rfl⟩
  · rintro ⟨⟨hl, he⟩, rfl⟩
    simp only [next, hl, he, after]

theorem next_eq_sat_iff : b.next sum = .verdict true ↔ b.firstBroken = none := by
  unfold next
  split
  · rename_i h
    simp only [h]
  · rename_i l hl
    split <;> simp only [hl, reduceCtorEq, Outcome.verdict.injEq, Bool.false_eq_true]

theorem next_eq_unsat_iff :
    b.next sum = .verdict false ↔
      ∃ l, b.firstBroken = some l ∧ b.firstSuitable l = none := by
  unfold next
  split
  · rename_i h
    simp only [h, Outcome.verdict.injEq, Bool.true_eq_false, reduceCtorEq, false_and, exists_false]
  · rename_i l hl
    split
    · rename_i hs
      simp only [hl, Option.some.injEq, exists_eq_left', hs]
    · rename_i e hs
      simp only [hl, Option.some.injEq, exists_eq_left', hs, reduceCtorEq]

theorem same_exchanged : (b.exchanged leaving entering).Same b := ⟨rfl, rfl, rfl, rfl, rfl⟩

theorem same_after : (b.after sum leaving entering).Same b := ⟨rfl, rfl, rfl, rfl, rfl⟩

namespace Exchanges

theorem leaving_lt (h : b.Exchanges leaving entering) : leaving < b.numVars :=
  (firstBroken_eq_some h.broken).1

theorem leaving_basic (h : b.Exchanges leaving entering) : b.role leaving = .basic :=
  (firstBroken_eq_some h.broken).2.1

theorem entering_lt (h : b.Exchanges leaving entering) : entering < b.numVars :=
  (firstSuitable_eq_some h.suitable).1

theorem entering_nonbasic (h : b.Exchanges leaving entering) : b.role entering = .nonbasic :=
  (firstSuitable_eq_some h.suitable).2.1

theorem ne (h : b.Exchanges leaving entering) : leaving ≠ entering :=
  ne_of_roles h.leaving_basic h.entering_nonbasic

theorem col_lt (h : b.Exchanges leaving entering) (hv : b.Valid) :
    b.basis.placeOf entering < b.numCols :=
  (hv.basis.nonbasic entering h.entering_lt h.entering_nonbasic).1

variable [StrictScalar α]

/-- The coefficient of an exchange is not zero. -/
theorem cross_ne_zero (h : b.Exchanges leaving entering) : b.cross leaving entering ≠ 0 := by
  intro hzero
  rcases cross_of_suits (firstSuitable_eq_some h.suitable).2.2.1 with hlt | hlt
  all_goals
    rw [hzero, StrictScalar.lt_self] at hlt
    exact absurd hlt (by decide)

/-- Only a row that is taken is exchanged: the others are zero. -/
theorem row_lt (h : b.Exchanges leaving entering) (hv : b.Valid) :
    b.basis.placeOf leaving < b.numRows := by
  rcases hv.basis.basic leaving h.leaving_lt h.leaving_basic with ⟨hlt, -⟩
  by_cases hrow : b.basis.placeOf leaving < b.numRows
  · exact hrow
  · exact absurd (hv.zero _ (by omega) hlt _ (h.col_lt hv)) h.cross_ne_zero

end Exchanges

/-! ### What an iteration keeps -/

section Moves

theorem Valid.corrected (hv : b.Valid) : (b.corrected leaving entering).Valid :=
  ⟨hv.basis, hv.numRows_le, hv.zero, hv.spare⟩

theorem Valid.recomputed (hv : b.Valid) : (b.recomputed sum).Valid :=
  ⟨hv.basis, hv.numRows_le, hv.zero, hv.spare⟩

/-- The exchange of a row that is taken keeps the bookkeeping: the rows that
    are not taken are neither changed nor given away. -/
theorem Valid.exchanged (hv : b.Valid) (hl : leaving < b.numVars) (he : entering < b.numVars)
    (hlb : b.role leaving = .basic) (hen : b.role entering = .nonbasic)
    (hrow : b.basis.placeOf leaving < b.numRows) : (b.exchanged leaving entering).Valid where
  basis := hv.basis.swapped hl he hlb hen
  numRows_le := hv.numRows_le
  -- The row that is solved is taken, so the rows that are not taken are neither solved nor
  -- reduced by it.
  zero := by
    intro r hr hrm c hc
    simp only [Board.exchanged] at hr hrm hc ⊢
    rw [exchangedCell, if_neg (by omega), if_neg (by omega)]
    exact hv.zero r hr hrm c hc
  spare := by
    intro r hr hrm
    simp only [Board.exchanged] at hr hrm ⊢
    rw [hv.basis.inRow_swapped hrm, if_neg (by omega)]
    exact hv.spare r hr hrm

variable [StrictScalar α]

theorem Valid.exchangedAfter (hv : b.Valid) (h : b.Exchanges leaving entering) :
    ((b.corrected leaving entering).exchanged leaving entering).Valid :=
  hv.corrected.exchanged h.leaving_lt h.entering_lt h.leaving_basic h.entering_nonbasic
    (h.row_lt hv)

/-- An iteration keeps the bookkeeping. The row of the variable that leaves is taken, since
    the coefficient is not zero there, and so the exchange leaves the other rows and their
    slacks alone. -/
theorem Valid.after (hv : b.Valid) (h : b.Exchanges leaving entering) :
    (b.after sum leaving entering).Valid :=
  (hv.exchangedAfter h).recomputed

end Moves

/-! ### Roles and values after an iteration -/

theorem role_after (v : Nat) :
    (b.after sum leaving entering).role v = exchangedRole b.role leaving entering v := rfl

theorem role_after_leaving (h : b.Exchanges leaving entering) :
    (b.after sum leaving entering).role leaving = .nonbasic := by
  rw [role_after, exchangedRole, if_neg h.ne, if_pos rfl]

theorem role_after_entering : (b.after sum leaving entering).role entering = .basic := by
  rw [role_after, exchangedRole, if_pos rfl]

theorem role_after_other {v : Nat} (hl : v ≠ leaving) (he : v ≠ entering) :
    (b.after sum leaving entering).role v = b.role v := by
  rw [role_after, exchangedRole, if_neg he, if_neg hl]

theorem value_recomputed_nonbasic {v : Nat} (hrole : b.role v = .nonbasic) :
    (b.recomputed sum).value v = b.value v := by
  refine if_neg fun howns => ?_
  have hbasic := howns.2.1
  rw [hrole] at hbasic
  exact absurd hbasic (by decide)

theorem value_recomputed_basic {v : Nat} (hlt : v < b.numVars) (hrole : b.role v = .basic)
    (hrow : b.basis.placeOf v < b.numRows) :
    (b.recomputed sum).value v = sum b.numCols (b.products (b.basis.placeOf v)) :=
  if_pos ⟨hlt, hrole, hrow, List.not_mem_nil⟩

/-- What is nonbasic after an iteration is not recomputed: the variable that
    left stays where the correction put it, and the others where they were. -/
theorem value_after_nonbasic {v : Nat}
    (hrole : (b.after sum leaving entering).role v = .nonbasic) :
    (b.after sum leaving entering).value v
      = if v = leaving then b.landing leaving else b.value v := by
  have hne : v ≠ entering := (ne_of_roles role_after_entering hrole).symm
  have hrole' : ((b.corrected leaving entering).exchanged leaving entering).role v = .nonbasic :=
    hrole
  rw [after, value_recomputed_nonbasic hrole']
  simp only [exchanged, corrected, withValue, if_neg hne]

/-- The slack of a row that is not taken is neither of the two that are exchanged. -/
theorem Exchanges.ne_spare [StrictScalar α] (h : b.Exchanges leaving entering) (hv : b.Valid)
    {r : Nat} (hr : b.numRows ≤ r) (hrm : r < b.maxRows) :
    b.numCols + r ≠ leaving ∧ b.numCols + r ≠ entering := by
  have hslack := (hv.basis.row r hrm).2
  rw [hv.spare r hr hrm] at hslack
  constructor
  · intro heq
    have hrow := h.row_lt hv
    rw [← heq, hslack.1] at hrow
    omega
  · intro heq
    have hnonbasic := h.entering_nonbasic
    rw [← heq, hslack.2] at hnonbasic
    exact absurd hnonbasic (by decide)

/-- The value of such a slack stays what it is: it is not corrected, and its row is not
    recomputed. -/
theorem value_after_spare [StrictScalar α] (hv : b.Valid) (h : b.Exchanges leaving entering)
    {r : Nat} (hr : b.numRows ≤ r) (hrm : r < b.maxRows) :
    (b.after sum leaving entering).value (b.numCols + r) = b.value (b.numCols + r) := by
  rcases hv.basis.row r hrm with ⟨hlt, hplace, -⟩
  rw [hv.spare r hr hrm] at hlt hplace
  rcases h.ne_spare hv hr hrm with ⟨hl, he⟩
  -- The slack keeps its row through the exchange, and that row is not among those that are
  -- recomputed.
  have hnot : ¬ ((b.corrected leaving entering).exchanged leaving entering).OwnsOutside []
      (b.numCols + r) := by
    intro howns
    have hrow : (b.basis.swapped leaving entering).placeOf (b.numCols + r) < b.numRows :=
      howns.2.2.1
    rw [hv.basis.placeOf_swapped hlt, if_neg he, if_neg hl, hplace] at hrow
    omega
  refine (if_neg hnot).trans ?_
  simp only [exchanged, corrected, withValue, if_neg hl, if_neg he]

/-! ### Whole searches -/

/-- The boards of a search, with the exchanges that led there, the oldest first. It is the
    induction behind all statements on moments of a search: a property of boards that one
    iteration keeps holds of every board of a run. -/
inductive Run (sum : Summation α) (b₀ : Board α) : List (Nat × Nat) → Board α → Prop where
  | start : Run sum b₀ [] b₀
  | step {l : List (Nat × Nat)} {b b' : Board α} {leaving entering : Nat} :
      Run sum b₀ l b → b.next sum = .exchange leaving entering b' →
      Run sum b₀ (l ++ [(leaving, entering)]) b'

namespace Run

variable {b₀ : Board α} {l : List (Nat × Nat)}

theorem same (h : Run sum b₀ l b) : b.Same b₀ := by
  induction h with
  | start => exact ⟨rfl, rfl, rfl, rfl, rfl⟩
  | step _ hnext ih =>
      rcases next_eq_exchange_iff.mp hnext with ⟨-, rfl⟩
      exact same_after.trans ih

/-- The bookkeeping holds at every moment of a search, by induction on its exchanges. -/
theorem valid [StrictScalar α] (h : Run sum b₀ l b) (hv : b₀.Valid) : b.Valid := by
  induction h with
  | start => exact hv
  | step _ hnext ih =>
      rcases next_eq_exchange_iff.mp hnext with ⟨hex, rfl⟩
      exact ih.after hex

/-- An iteration has one outcome, so a search is determined by its length. -/
theorem unique {l' : List (Nat × Nat)} {b' : Board α} (h : Run sum b₀ l b) :
    Run sum b₀ l' b' → l.length = l'.length → l = l' ∧ b = b' := by
  induction h generalizing l' b' with
  | start =>
      intro h' hlen
      cases h' with
      | start => exact ⟨rfl, rfl⟩
      | step _ _ =>
          simp only [List.length_nil, List.length_append, List.length_cons] at hlen
          omega
  | step _ hnext ih =>
      intro h' hlen
      cases h' with
      | start =>
          simp only [List.length_nil, List.length_append, List.length_cons] at hlen
          omega
      | step h₁ hnext' =>
          simp only [List.length_append, List.length_cons, List.length_nil,
            Nat.add_right_cancel_iff] at hlen
          -- The boards before the last step are the same, so the last step is too.
          rcases ih h₁ hlen with ⟨rfl, rfl⟩
          rw [hnext] at hnext'
          cases hnext'
          exact ⟨rfl, rfl⟩

/-- A search of some length passed through every smaller one. -/
theorem exists_of_le (h : Run sum b₀ l b) {n : Nat} (hn : n ≤ l.length) :
    ∃ l' b', Run sum b₀ l' b' ∧ l'.length = n := by
  induction h with
  | start => exact ⟨[], b₀, .start, (Nat.le_zero.mp hn).symm⟩
  | @step l b b' leaving entering hrun hnext ih =>
      by_cases hlt : n ≤ l.length
      · exact ih hlt
      · refine ⟨_, b', hrun.step hnext, ?_⟩
        rw [List.length_append, List.length_singleton] at hn ⊢
        omega

/-- The last exchange of a search. -/
theorem exists_last (h : Run sum b₀ l b) {n : Nat} (hn : l.length = n + 1) :
    ∃ l' b' leaving entering, Run sum b₀ l' b' ∧ l'.length = n ∧
      b'.next sum = .exchange leaving entering b := by
  cases h with
  | start =>
      rw [List.length_nil] at hn
      omega
  | @step l' b' _ leaving entering hrun hnext =>
      rw [List.length_append, List.length_singleton] at hn
      exact ⟨l', b', leaving, entering, hrun, by omega, hnext⟩

end Run

end Board

end BoundedSimplex
