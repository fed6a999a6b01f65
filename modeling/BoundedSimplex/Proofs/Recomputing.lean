import BoundedSimplex.Proofs.Board
import BoundedSimplex.Proofs.Outcome

/-!
# Rows in Any Order

What comes of recomputing some rows, one after the other.

The value a row gives to its variable is written where all values lie, and the rows
after it read what lies there. That none of them reads what another one has written
is owed to the basis alone: the rows are sums over the owners of columns, and what
is written belongs to owners of rows. So every row gives what it would have given
first. What a list of rows leads to depends on which rows it has, not on how they
are ordered, and a row that is listed twice might as well be listed once.

The roles have no part in this. It is enough that the tables of the basis belong
together for some roles, and the board may have others.

## Main definitions

* `Board.recomputedRow`, `Board.recomputedRows`: The board after one row, and after
  some of them.

## Theorems

* `Board.products_recomputedRow`: A row does not show in the others.
* `Board.value_recomputedRows_inRow`, `Board.value_recomputedRows_other`: The values
  after some rows.
* `Board.recomputedRows_congr`: The same rows in any order, and any number of times.
* `Board.Valid.recomputedRows_range`: The rows of an iteration.
* `Board.forM_recomputedRows`: An engine that recomputes one row recomputes some.
-/

namespace BoundedSimplex

namespace Board

variable {α : Type} [Scalar α] {sum : Summation α} {b : Board α} {role : Nat → Role}
  {rows rows' : List Nat} {r : Nat}

/-- The board after the variable of one row was recomputed. The owner of the row gets the
    value, whatever role it has. -/
def recomputedRow (sum : Summation α) (b : Board α) (r : Nat) : Board α :=
  b.withValue (b.basis.inRow r) (sum b.numCols (b.products r))

/-- The board after the variables of some rows were recomputed, one after the other. -/
def recomputedRows (sum : Summation α) (b : Board α) (rows : List Nat) : Board α :=
  rows.foldl (recomputedRow sum) b

theorem recomputedRows_append :
    b.recomputedRows sum (rows ++ rows') = (b.recomputedRows sum rows).recomputedRows sum rows' :=
  List.foldl_append

/-- Nothing but values changes. -/
theorem recomputedRows_eq (rows : List Nat) :
    b.recomputedRows sum rows = { b with value := (b.recomputedRows sum rows).value } := by
  induction rows generalizing b with
  | nil => rfl
  | cons r rest ih => exact ih (b := b.recomputedRow sum r)

/-- So boards that were recomputed are the same if their values are. -/
theorem recomputedRows_ext {x : Nat → α} (h : ∀ v, (b.recomputedRows sum rows).value v = x v) :
    b.recomputedRows sum rows = { b with value := x } := by
  rw [recomputedRows_eq, funext h]

theorem same_recomputedRows (rows : List Nat) : (b.recomputedRows sum rows).Same b := by
  rw [recomputedRows_eq]
  exact ⟨rfl, rfl, rfl, rfl, rfl⟩

/-- The tables of the basis belong together as they did before. -/
theorem matches_recomputedRows (hm : b.basis.Matches b.maxRows b.numCols role) (rows : List Nat) :
    (b.recomputedRows sum rows).basis.Matches (b.recomputedRows sum rows).maxRows
      (b.recomputedRows sum rows).numCols role := by
  rw [recomputedRows_eq]
  exact hm

/-- The value of every other variable stays. In particular the owners of columns keep
    theirs, and these are all that a sum reads. -/
theorem value_recomputedRows_other {v : Nat} (h : ∀ r ∈ rows, v ≠ b.basis.inRow r) :
    (b.recomputedRows sum rows).value v = b.value v := by
  induction rows generalizing b with
  | nil => rfl
  | cons r rest ih =>
      have hrest : ((b.recomputedRow sum r).recomputedRows sum rest).value v
          = (b.recomputedRow sum r).value v := ih fun r' hr' => h r' (List.mem_cons_of_mem _ hr')
      exact hrest.trans (if_neg (h r List.mem_cons_self))

section Matches

variable (hm : b.basis.Matches b.maxRows b.numCols role)
include hm

/-- The rows are made of owners of columns, so that one that was recomputed already
    does not show in the others. -/
theorem products_recomputedRow (hr : r < b.maxRows) :
    (b.recomputedRow sum r).products = b.products := by
  funext r' c
  show (if c < b.numCols then
      (b.recomputedRow sum r).value (b.basis.inCol c) * b.coeff r' c else 0)
    = if c < b.numCols then b.value (b.basis.inCol c) * b.coeff r' c else 0
  by_cases hc : c < b.numCols
  · have hvalue : (b.recomputedRow sum r).value (b.basis.inCol c) = b.value (b.basis.inCol c) :=
      if_neg (hm.inRow_ne_inCol hr hc).symm
    rw [if_pos hc, if_pos hc, hvalue]
  · rw [if_neg hc, if_neg hc]

theorem products_recomputedRows (hlt : ∀ r ∈ rows, r < b.maxRows) :
    (b.recomputedRows sum rows).products = b.products := by
  induction rows generalizing b with
  | nil => rfl
  | cons r rest ih =>
      have hrest : ((b.recomputedRow sum r).recomputedRows sum rest).products
          = (b.recomputedRow sum r).products :=
        ih hm fun r' hr' => hlt r' (List.mem_cons_of_mem _ hr')
      exact hrest.trans (products_recomputedRow hm (hlt r List.mem_cons_self))

/-- The owner of a row has the sum of its products, as they were at first. That the rows
    before it were recomputed makes no difference. -/
theorem value_recomputedRows_inRow (hlt : ∀ r ∈ rows, r < b.maxRows) (hr : r ∈ rows) :
    (b.recomputedRows sum rows).value (b.basis.inRow r) = sum b.numCols (b.products r) := by
  induction rows generalizing b with
  | nil => cases hr
  | cons r' rest ih =>
      have hlt' : ∀ r ∈ rest, r < b.maxRows := fun r hr => hlt r (List.mem_cons_of_mem _ hr)
      -- The row comes again later on: its products are the same then, since recomputing a row
      -- does not change a product.
      by_cases hmem : r ∈ rest
      · have hrest : ((b.recomputedRow sum r').recomputedRows sum rest).value (b.basis.inRow r)
            = sum b.numCols ((b.recomputedRow sum r').products r) := ih hm hlt' hmem
        rw [products_recomputedRow hm (hlt r' List.mem_cons_self)] at hrest
        exact hrest
      · -- It was written first, and the other rows have other owners.
        obtain rfl : r = r' := (List.mem_cons.mp hr).resolve_right hmem
        have hrest : ((b.recomputedRow sum r).recomputedRows sum rest).value (b.basis.inRow r)
            = (b.recomputedRow sum r).value (b.basis.inRow r) := by
          refine value_recomputedRows_other fun r' hr' heq => hmem ?_
          rw [hm.inRow_inj (hlt r hr) (hlt' r' hr') heq]
          exact hr'
        exact hrest.trans (if_pos rfl)

/-- Lists with the same rows lead to the same board. This covers any order and any
    repetition at once. -/
theorem recomputedRows_congr (hlt : ∀ r ∈ rows, r < b.maxRows)
    (hsame : ∀ r, r ∈ rows' ↔ r ∈ rows) :
    b.recomputedRows sum rows' = b.recomputedRows sum rows := by
  rw [recomputedRows_eq rows]
  refine recomputedRows_ext fun v => ?_
  by_cases howns : ∃ r ∈ rows, v = b.basis.inRow r
  · rcases howns with ⟨r, hr, rfl⟩
    rw [value_recomputedRows_inRow hm hlt hr, value_recomputedRows_inRow hm
      (fun r' hr' => hlt r' ((hsame r').mp hr')) ((hsame r).mpr hr)]
  · have hother : ∀ r ∈ rows, v ≠ b.basis.inRow r := fun r hr heq => howns ⟨r, hr, heq⟩
    rw [value_recomputedRows_other hother,
      value_recomputedRows_other fun r hr => hother r ((hsame r).mp hr)]

end Matches

/-! ### The rows of an iteration -/

/-- All rows that are taken, one after the other. The rows do not see each other, so the
    list of writes and the one definition of the recomputed board agree. -/
theorem Valid.recomputedRows_range (hv : b.Valid) :
    b.recomputedRows sum (List.range b.numRows) = b.recomputed sum := by
  have hlt : ∀ r ∈ List.range b.numRows, r < b.maxRows :=
    fun r hr => Nat.lt_of_lt_of_le (List.mem_range.mp hr) hv.numRows_le
  refine recomputedRows_ext fun v => ?_
  -- A variable that owns a row that is taken has its sum, and any other one is not written.
  by_cases howns : b.OwnsOutside [] v
  · rcases howns with ⟨hv', hrole, hrow, -⟩
    have hvalue : (b.recomputedRows sum (List.range b.numRows)).value
        (b.basis.inRow (b.basis.placeOf v)) = sum b.numCols (b.products (b.basis.placeOf v)) :=
      value_recomputedRows_inRow hv.basis hlt (List.mem_range.mpr hrow)
    rw [(hv.basis.basic v hv' hrole).2] at hvalue
    rw [hvalue, if_pos ⟨hv', hrole, hrow, List.not_mem_nil⟩]
  · refine (value_recomputedRows_other fun r hr heq => howns ?_).trans (if_neg howns).symm
    rcases hv.basis.row r (hlt r hr) with ⟨hlt, hplace, hrole⟩
    rw [heq, OwnsOutside, hplace]
    exact ⟨hlt, hrole, List.mem_range.mp hr, List.not_mem_nil⟩

/-- Rows that were recomputed do not show in the products. -/
theorem Valid.products_recomputed (hv : b.Valid) (r : Nat) :
    (b.recomputed sum).products r = b.products r := by
  have hproducts : (b.recomputedRows sum (List.range b.numRows)).products = b.products :=
    products_recomputedRows hv.basis fun r' hr' =>
      Nat.lt_of_lt_of_le (List.mem_range.mp hr') hv.numRows_le
  rw [← hv.recomputedRows_range, hproducts]

/-- What recomputes one row after the other, each from the values as they then are. `Shows`
    says how an operation shows the board; the induction on the rows is made here once for
    all engines. -/
theorem forM_recomputedRows {S : Type} {f : Nat → Exec S Unit} (Shows : S → Board α → Prop)
    (hstep : ∀ r ∈ rows, ∀ s x, Shows s { b with value := x } →
      (f r).Gives s fun _ s' => Shows s' (recomputedRow sum { b with value := x } r))
    {s : S} (hs : Shows s b) :
    (rows.forM f).Gives s fun _ s' => Shows s' (b.recomputedRows sum rows) := by
  induction rows generalizing b s with
  | nil => exact Exec.Gives.pure hs
  | cons r rest ih =>
      refine (hstep r List.mem_cons_self s b.value hs).bind fun _ s₁ h₁ => ?_
      exact ih (b := b.recomputedRow sum r)
        (fun r' hr' => hstep r' (List.mem_cons_of_mem _ hr')) h₁

end Board

end BoundedSimplex
