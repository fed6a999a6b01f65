import BoundedSimplex.Proofs.Sequential
import Mathlib.Tactic.FieldSimp
import Mathlib.Tactic.Ring

/-!
# Exchanging Back

An exchange and the one that takes it back.

An exchange solves a row for the variable of a column. The variable that left now
owns the column, and solving the same row for it again gives the row as it was. Put
into the other rows, it takes out of each what the first exchange had put in. Over
exact numbers nothing is lost in this, so after the second exchange every
coefficient is what it was. The tables of the basis, the roles and the two sets go
back as well, and they do so whatever the numbers are.

The two exchanges meet at the same row and column. The pivot of the second is one
over that of the first, which is why it is enough that the first is not zero.

## Main definitions

* `Sequential.Coherent`: Tables, roles and sets of a workspace agree.
* `Sequential.square`: A workspace of two rows and two columns.

## Theorems

* `exchangedCell_exchangedCell`: The coefficients after two exchanges.
* `Board.exchanged_exchanged`: A board after two exchanges.
* `Sequential.Shows.unique`: A board is all there is to know of a workspace.
* `Sequential.pivot_pivot`: Two exchanges leave the workspace as it was.
-/

namespace BoundedSimplex

/-! ### Coefficients -/

/-- Solving a row for a column and then for the variable that left gives every
    coefficient back, if the cell where they meet is not zero. -/
theorem exchangedCell_exchangedCell {numRows row col : Nat} {f : Nat → Nat → Rat}
    (h : f row col ≠ 0) :
    exchangedCell numRows row col (exchangedCell numRows row col f) = f := by
  funext r c
  have hpivot : exchangedCell numRows row col f row col = 1 / f row col := by
    rw [exchangedCell, if_pos rfl, if_pos rfl]
  -- The formulas of the second exchange, with those of the first put in. The cases
  -- are the four kinds of cells, the same for both.
  rw [exchangedCell, hpivot]
  by_cases hr : r = row
  · rw [if_pos hr]
    by_cases hc : c = col
    · rw [if_pos hc, hr, hc]
      exact one_div_one_div (f row col)
    · rw [if_neg hc, hr, exchangedCell, if_pos rfl, if_neg hc]
      show -(-f row c / f row col) / (1 / f row col) = f row c
      field_simp
  · rw [if_neg hr]
    by_cases hn : r < numRows
    · rw [if_pos hn]
      by_cases hc : c = col
      · rw [if_pos hc, hc, exchangedCell, if_neg hr, if_pos hn, if_pos rfl]
        show f r col / f row col / (1 / f row col) = f r col
        field_simp
      · -- What the first exchange took off is put back, times and over the pivot.
        simp only [exchangedCell, if_neg hr, if_pos hn, if_neg hc, if_true]
        show f r c - f row c * f r col / f row col
          - -f row c / f row col * (f r col / f row col) / (1 / f row col) = f r c
        field_simp
        ring
    · rw [if_neg hn, exchangedCell, if_neg hr, if_neg hn]

/-! ### The basis and the roles -/

theorem exchangedRole_exchangedRole {role : Nat → Role} {leaving entering : Nat}
    (hl : role leaving = .basic) (he : role entering = .nonbasic) :
    exchangedRole (exchangedRole role leaving entering) entering leaving = role := by
  funext v
  simp only [exchangedRole]
  by_cases hvl : v = leaving
  · rw [if_pos hvl, hvl, hl]
  · rw [if_neg hvl]
    by_cases hve : v = entering
    · rw [if_pos hve, hve, he]
    · rw [if_neg hve, if_neg hve, if_neg hvl]

/-- A table in which an entry is replaced and then put back. -/
theorem setIfInBounds_back {α : Type} {table : Array α} {i : Nat} {x y : α}
    (h : table[i]? = some x) : (table.setIfInBounds i y).setIfInBounds i x = table := by
  rw [Array.setIfInBounds_setIfInBounds]
  refine Array.ext_getElem? fun j => ?_
  rw [Array.getElem?_setIfInBounds]
  by_cases hij : i = j
  · rw [if_pos hij, if_pos (hij ▸ (Array.getElem?_eq_some_iff.mp h).1), ← hij, h]
  · rw [if_neg hij]

namespace Basis.Matches

variable {b : Basis} {maxRows numCols : Nat} {role : Nat → Role} {leaving entering : Nat}

/-- Each of two variables that are exchanged gets the place of the other. -/
theorem placeOf_swapped_pair (h : b.Matches maxRows numCols role)
    (hl : leaving < numCols + maxRows) (he : entering < numCols + maxRows)
    (hne : leaving ≠ entering) :
    (b.swapped leaving entering).placeOf leaving = b.placeOf entering ∧
      (b.swapped leaving entering).placeOf entering = b.placeOf leaving := by
  rw [h.placeOf_swapped hl, h.placeOf_swapped he, if_neg hne, if_pos rfl, if_pos rfl]
  exact ⟨rfl, rfl⟩

/-- The tables after an exchange and the one that takes it back. -/
theorem swapped_swapped (h : b.Matches maxRows numCols role) (hl : leaving < numCols + maxRows)
    (he : entering < numCols + maxRows) (hlb : role leaving = .basic)
    (hen : role entering = .nonbasic) :
    (b.swapped leaving entering).swapped entering leaving = b := by
  have hne := ne_of_roles hlb hen
  rcases h.basic leaving hl hlb with ⟨hrow, hrowl⟩
  rcases h.nonbasic entering he hen with ⟨hcol, hcole⟩
  rcases h.placeOf_swapped_pair hl he hne with ⟨hleaving, hentering⟩
  have hcolVar := (h.colVar?_eq hcol).trans (congrArg some hcole)
  have hrowVar := (h.rowVar?_eq hrow).trans (congrArg some hrowl)
  -- Each place is written twice. The two writes for the entering variable are next
  -- to each other and cancel; after that those for the leaving one do.
  have hplace : ((b.swapped leaving entering).place.setIfInBounds entering
      (b.placeOf entering)).setIfInBounds leaving (b.placeOf leaving) = b.place := by
    show (((b.place.setIfInBounds leaving _).setIfInBounds entering _).setIfInBounds entering
      _).setIfInBounds leaving _ = b.place
    rw [setIfInBounds_back (x := b.placeOf entering), setIfInBounds_back]
    · exact h.place?_eq hl
    · rw [Array.getElem?_setIfInBounds, if_neg hne]
      exact h.place?_eq he
  rw [Basis.swapped, hleaving, hentering, hplace]
  show (⟨(b.colVar.setIfInBounds _ _).setIfInBounds _ _,
    (b.rowVar.setIfInBounds _ _).setIfInBounds _ _, b.place⟩ : Basis) = b
  rw [setIfInBounds_back hcolVar, setIfInBounds_back hrowVar]

end Basis.Matches

/-! ### The board -/

/-- Over exact numbers a board goes back to what it was, if the cell where the
    two variables meet is not zero. -/
theorem Board.exchanged_exchanged {b : Board Rat} {leaving entering : Nat}
    (hm : b.basis.Matches b.maxRows b.numCols b.role) (hl : leaving < b.numVars)
    (he : entering < b.numVars) (hlb : b.role leaving = .basic)
    (hen : b.role entering = .nonbasic) (hcross : b.cross leaving entering ≠ 0) :
    (b.exchanged leaving entering).exchanged entering leaving = b := by
  have hne := ne_of_roles hlb hen
  rcases hm.placeOf_swapped_pair hl he hne with ⟨hleaving, hentering⟩
  have hcoeff : exchangedCell b.numRows (b.basis.placeOf leaving) (b.basis.placeOf entering)
      (exchangedCell b.numRows (b.basis.placeOf leaving) (b.basis.placeOf entering) b.coeff)
        = b.coeff :=
    exchangedCell_exchangedCell hcross
  have hbasis := hm.swapped_swapped hl he hlb hen
  have hrole := exchangedRole_exchangedRole hlb hen
  simp only [Board.exchanged, hleaving, hentering, hcoeff, hbasis, hrole]

/-! ### The workspace -/

namespace Bounds.Table

variable {α : Type} {t t' : Table α} {b : Board α}

/-- There is one table with the variables of a board. -/
theorem Shows.unique (h : t.Shows b) (h' : t'.Shows b) : t = t' := by
  have hentries : t.entries = t'.entries := by
    refine Array.ext_getElem? fun v => ?_
    by_cases hv : v < b.numVars
    · rw [h.entry v hv, h'.entry v hv]
    · have hle := Nat.le_of_not_lt hv
      rw [Array.getElem?_eq_none (by rw [h.size]; exact hle),
        Array.getElem?_eq_none (by rw [h'.size]; exact hle)]
  have htolerance := h.tolerance.trans h'.tolerance.symm
  cases t
  cases t'
  simp only at hentries htolerance
  rw [hentries, htolerance]

end Bounds.Table

/-- Two sets with the same members are the same set. -/
theorem VarSet.eq_of_mem_iff {s s' : VarSet} (h : ∀ v, v ∈ s ↔ v ∈ s') : s = s' := by
  have hmembers : s.members = s'.members :=
    List.Pairwise.eq_of_mem_iff s.ascending s'.ascending h
  cases s
  cases s'
  simp only at hmembers
  subst hmembers
  rfl

namespace Sequential

section Unique

variable {α : Type} {w w' : Workspace (Sequential α) α} {b : Board α}

/-- A board is all there is to know of a workspace. -/
theorem Shows.unique (h : Shows w b) (h' : Shows w' b) : w = w' := by
  have htableau := h.tableau.unique h'.tableau
  have hbasis := h.basis.trans h'.basis.symm
  have hbounds := h.bounds.unique h'.bounds
  have hbasic := VarSet.eq_of_mem_iff fun v => (h.basic v).trans (h'.basic v).symm
  have hnonbasic := VarSet.eq_of_mem_iff fun v => (h.nonbasic v).trans (h'.nonbasic v).symm
  rcases w with ⟨t, m, ⟨bounds, basic, nonbasic⟩⟩
  rcases w' with ⟨t', m', ⟨bounds', basic', nonbasic'⟩⟩
  simp only at htableau hbasis hbounds hbasic hnonbasic
  rw [htableau, hbasis, hbounds, hbasic, hnonbasic]

end Unique

section Board

variable {α : Type} [Scalar α]

/-- The tables of a workspace agree: every variable has one entry, with the role `role`
    gives it, the basis is a bijection in which basic variables own rows and nonbasic ones
    columns, and the two sets are the basic and the nonbasic variables. Nothing is said
    about the coefficients, and nothing about how the workspace came about. -/
structure Coherent (w : Workspace (Sequential α) α) (role : Nat → Role) : Prop where
  numRows_le : w.tableau.numRows ≤ w.tableau.maxRows
  size : w.engine.bounds.entries.size = w.tableau.numCols + w.tableau.maxRows
  entry : ∀ v e, w.engine.bounds.entries[v]? = some e → e.role = role v
  basis : w.basis.Matches w.tableau.maxRows w.tableau.numCols role
  basic : ∀ v, v ∈ w.engine.basic ↔ v < w.engine.bounds.entries.size ∧ role v = .basic
  nonbasic : ∀ v, v ∈ w.engine.nonbasic ↔ v < w.engine.bounds.entries.size ∧ role v = .nonbasic

variable {w : Workspace (Sequential α) α} {role : Nat → Role}

theorem Coherent.shows (h : Coherent w role) : Shows w (board w role) := by
  have hnum : (board w role).numVars = w.engine.bounds.entries.size := h.size.symm
  rcases holds_board h.size h.entry with ⟨htableau, hbasis, hbounds⟩
  refine ⟨htableau, hbasis, hbounds, fun v => ?_, fun v => ?_⟩
  · rw [h.basic, hnum, decide_eq_true_eq]
    rfl
  · rw [h.nonbasic, hnum, decide_eq_true_eq]
    rfl

/-- The tables of an engine that was just made agree, whatever rows are taken. -/
theorem coherent_initial (t : Tableau α) (h : t.numRows ≤ t.maxRows) (tolerance : α) :
    Coherent ⟨t, .ofDimensions t.maxRows t.numCols, .initial t.maxRows t.numCols tolerance⟩
      (Role.initial t.numCols) := by
  have hsize : (Bounds.Table.initial t.maxRows t.numCols tolerance).entries.size
      = t.maxRows + t.numCols := by
    rw [Bounds.Table.initial, Array.size_map, Array.size_range]
  refine ⟨h, hsize.trans (Nat.add_comm _ _), fun v e he => ?_,
    Basis.matches_ofDimensions t.maxRows t.numCols, fun v => ?_, fun v => ?_⟩
  · rcases Array.getElem?_eq_some_iff.mp he with ⟨hlt, rfl⟩
    simp only [initial, Bounds.Table.initial, Array.getElem_map, Array.getElem_range]
  -- The set of the basic variables: they come after the columns.
  · show v ∈ VarSet.interval t.numCols t.maxRows ↔ v < (Bounds.Table.initial _ _ _).entries.size ∧ _
    rw [VarSet.mem_interval, hsize, Role.initial]
    by_cases hv : v < t.numCols
    · simp only [if_pos hv, reduceCtorEq, and_false, iff_false]
      omega
    · simp only [if_neg hv, and_true]
      omega
  -- The set of the nonbasic ones: they are the columns.
  · show v ∈ VarSet.interval 0 t.numCols ↔ v < (Bounds.Table.initial _ _ _).entries.size ∧ _
    rw [VarSet.mem_interval, hsize, Role.initial]
    by_cases hv : v < t.numCols
    · simp only [if_pos hv, and_true]
      omega
    · simp only [if_neg hv, reduceCtorEq, and_false, iff_false]
      omega

end Board

variable {w : Workspace (Sequential Rat) Rat} {role : Nat → Role}

/-- Over exact numbers two exchanges leave the workspace as it was: tableau, basis, bounds,
    roles and sets. The first takes `leaving` out of a row that is taken and puts `entering`
    in, at a pivot that is not zero, and the second takes it back. The pivot of the second
    one is the inverse of the first, and therefore not zero either. -/
theorem pivot_pivot (h : Coherent w role) {leaving entering row col : Nat} {alpha : Rat}
    (hl : leaving ∈ w.engine.basic) (he : entering ∈ w.engine.nonbasic)
    (hrow : w.basis.place? leaving = some row) (hcol : w.basis.place? entering = some col)
    (htaken : row < w.tableau.numRows) (hpivot : w.tableau.get row col = .ok alpha)
    (halpha : alpha ≠ 0) :
    (do pivot leaving entering; pivot entering leaving :
      Exec (Workspace (Sequential Rat) Rat) Unit).Yields w () w := by
  rcases (h.basic leaving).mp hl with ⟨hl, hlb⟩
  rcases (h.nonbasic entering).mp he with ⟨he, hen⟩
  rw [h.size] at hl he
  have hne := ne_of_roles hlb hen
  have hrow' : w.basis.placeOf leaving = row := by rw [Basis.placeOf, hrow, Option.getD_some]
  have hcol' : w.basis.placeOf entering = col := by rw [Basis.placeOf, hcol, Option.getD_some]
  have hcross : (board w role).cross leaving entering ≠ 0 := by
    have hget := h.shows.tableau.get (h.basis.basic leaving hl hlb).1
      (h.basis.nonbasic entering he hen).1
    rw [hrow', hcol', hpivot] at hget
    rw [Board.cross, show (board w role).basis = w.basis from rfl, hrow', hcol',
      ← Except.ok.inj hget]
    exact halpha
  have hfirst := pivot_gives h.shows h.basis h.numRows_le hl he hlb hen
    (by rw [show (board w role).basis = w.basis from rfl, hrow']; exact htaken)
  have hback := (board w role).exchanged_exchanged h.basis hl he hlb hen hcross
  -- In the second exchange the two variables have changed sides.
  have hsecond : ∀ w', Shows w' ((board w role).exchanged leaving entering) →
      (pivot entering leaving : Exec (Workspace (Sequential Rat) Rat) Unit).Gives w'
        fun _ w'' => w'' = w := by
    intro w' hw'
    refine (pivot_gives hw' (h.basis.swapped hl he hlb hen) h.numRows_le he hl ?_ ?_ ?_).mono
      fun _ w'' hw'' => ?_
    · exact if_pos rfl
    · show exchangedRole role leaving entering leaving = .nonbasic
      rw [exchangedRole, if_neg hne, if_pos rfl]
    · show (w.basis.swapped leaving entering).placeOf entering < w.tableau.numRows
      rw [(h.basis.placeOf_swapped_pair hl he hne).2, hrow']
      exact htaken
    · rw [hback] at hw''
      exact hw''.unique h.shows
  intro j
  rcases hfirst.bind (fun _ w' hw' => hsecond w' hw') j with ⟨⟨⟩, w'', j', hrun, rfl⟩
  exact ⟨j', hrun⟩

/-- A tableau of two rows and two columns, and an engine just made for it. The rows differ,
    so that an exchange has to undo something in both. -/
def square : Workspace (Sequential Rat) Rat where
  tableau := ⟨2, 2, 2, #[2, 3, 5, 7], rfl⟩
  basis := .ofDimensions 2 2
  engine := .initial 2 2 0

/-- The first slack gives its row to the second problem variable and gets it back. -/
theorem pivot_pivot_square :
    (do pivot 2 1; pivot 1 2 : Exec (Workspace (Sequential Rat) Rat) Unit).Yields
      square () square :=
  pivot_pivot (coherent_initial square.tableau (Nat.le_refl 2) 0)
    (show 2 ∈ VarSet.interval 2 2 from VarSet.mem_interval.mpr (by decide))
    (show 1 ∈ VarSet.interval 0 2 from VarSet.mem_interval.mpr (by decide))
    (show square.basis.place? 2 = some 0 by decide)
    (show square.basis.place? 1 = some 1 by decide) (by decide)
    (show square.tableau.get 0 1 = .ok 3 by rfl) (by decide)

end Sequential

end BoundedSimplex
