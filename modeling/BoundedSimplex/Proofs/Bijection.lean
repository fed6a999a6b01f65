import BoundedSimplex.Tableau.Basis
import BoundedSimplex.Bounds.Interval

/-!
# The Basis and the Roles

The three tables of a basis and the roles say the same thing.

A variable is basic exactly if it owns a row, and every row and every column
has an owner whose place it is. The tables are kept apart from the roles and
from each other, and an exchange changes them one after the other, so that
they agree is an invariant. `Basis.Matches` states it for a given number of
rows and columns: from a row or column to its owner and back, and from a
variable to its place and back, where the role says which of the two kinds of
place it is.

An exchange of a basic with a nonbasic variable keeps it, together with the
exchange of their roles. Nothing else about the two variables matters.

## Main definitions

* `Basis.inCol`, `Basis.inRow`, `Basis.placeOf`: The tables as functions.
* `Basis.Matches`: The tables agree with each other and with the roles.
* `Basis.swapped`: The tables after an exchange.
* `exchangedRole`: The roles after an exchange.

## Theorems

* `ne_of_roles`: Variables with different roles are different.
* `Basis.matches_ofDimensions`: The tables agree to begin with.
* `Basis.Matches.swap?_eq`: The exchange of two variables of different roles
  goes through.
* `Basis.Matches.swapped`: It keeps the tables in agreement.
-/

namespace BoundedSimplex

/-- The roles after `leaving` left the basis and `entering` entered it. The two are never
    one variable, since they have different roles before. -/
def exchangedRole (role : Nat → Role) (leaving entering v : Nat) : Role :=
  if v = entering then .basic else if v = leaving then .nonbasic else role v

/-- Variables with different roles are different. -/
theorem ne_of_roles {role : Nat → Role} {v w : Nat} (hv : role v = .basic)
    (hw : role w = .nonbasic) : v ≠ w := by
  rintro rfl
  rw [hv] at hw
  exact absurd hw (by decide)

namespace Basis

/-- The owner of a column, or zero if there is no such column. Only columns there are
    matter, and a total function is easier to rewrite with. -/
def inCol (b : Basis) (c : Nat) : Nat := (b.colVar? c).getD 0

/-- The owner of a row, or zero if there is no such row. -/
def inRow (b : Basis) (r : Nat) : Nat := (b.rowVar? r).getD 0

/-- The place of a variable, or zero if there is no such variable. -/
def placeOf (b : Basis) (v : Nat) : Nat := (b.place? v).getD 0

/-- The tables after the exchange of two variables. -/
def swapped (b : Basis) (leaving entering : Nat) : Basis where
  colVar := b.colVar.setIfInBounds (b.placeOf entering) leaving
  rowVar := b.rowVar.setIfInBounds (b.placeOf leaving) entering
  place := (b.place.setIfInBounds leaving (b.placeOf entering)).setIfInBounds entering
    (b.placeOf leaving)

/-- The tables agree with each other and with the roles: every column leads to a nonbasic
    variable and back, every row to a basic one, and every variable to the row or column its
    role calls for. The roles decide here what a place means, since a row and a column can
    have the same number. -/
structure Matches (b : Basis) (maxRows numCols : Nat) (role : Nat → Role) : Prop where
  size_colVar : b.colVar.size = numCols
  size_rowVar : b.rowVar.size = maxRows
  size_place : b.place.size = numCols + maxRows
  col : ∀ c < numCols, b.inCol c < numCols + maxRows ∧ b.placeOf (b.inCol c) = c ∧
    role (b.inCol c) = .nonbasic
  row : ∀ r < maxRows, b.inRow r < numCols + maxRows ∧ b.placeOf (b.inRow r) = r ∧
    role (b.inRow r) = .basic
  nonbasic : ∀ v < numCols + maxRows, role v = .nonbasic →
    b.placeOf v < numCols ∧ b.inCol (b.placeOf v) = v
  basic : ∀ v < numCols + maxRows, role v = .basic →
    b.placeOf v < maxRows ∧ b.inRow (b.placeOf v) = v

section Initial

variable {maxRows numCols : Nat}

theorem inCol_ofDimensions {c : Nat} (hc : c < numCols) :
    (ofDimensions maxRows numCols).inCol c = c := by
  simp only [inCol, colVar?, ofDimensions, Array.getElem?_range, if_pos hc, Option.getD_some]

theorem inRow_ofDimensions {r : Nat} (hr : r < maxRows) :
    (ofDimensions maxRows numCols).inRow r = numCols + r := by
  simp only [inRow, rowVar?, ofDimensions, Array.getElem?_map, Array.getElem?_range, if_pos hr,
    Option.map_some, Option.getD_some]

theorem placeOf_ofDimensions_col {c : Nat} (hc : c < numCols) :
    (ofDimensions maxRows numCols).placeOf c = c := by
  simp only [placeOf, place?, ofDimensions, Array.getElem?_append, Array.size_range, if_pos hc,
    Array.getElem?_range, Option.getD_some]

theorem placeOf_ofDimensions_row {r : Nat} (hr : r < maxRows) :
    (ofDimensions maxRows numCols).placeOf (numCols + r) = r := by
  have hge : ¬ numCols + r < numCols := by omega
  simp only [placeOf, place?, ofDimensions, Array.getElem?_append, Array.size_range, if_neg hge,
    Nat.add_sub_cancel_left, Array.getElem?_range, if_pos hr, Option.getD_some]

/-- The tables agree to begin with: problem variables in the columns and slacks in the rows.
    So every variable of the basis is a slack at first, and this is what the initial roles
    say. -/
theorem matches_ofDimensions (maxRows numCols : Nat) :
    (ofDimensions maxRows numCols).Matches maxRows numCols (Role.initial numCols) where
  size_colVar := Array.size_range
  size_rowVar := by simp only [ofDimensions, Array.size_map, Array.size_range]
  size_place := by simp only [ofDimensions, Array.size_append, Array.size_range]
  col := by
    intro c hc
    rw [inCol_ofDimensions hc]
    exact ⟨by omega, placeOf_ofDimensions_col hc, if_pos hc⟩
  row := by
    intro r hr
    rw [inRow_ofDimensions hr]
    exact ⟨by omega, placeOf_ofDimensions_row hr, if_neg (by omega)⟩
  nonbasic := by
    intro v _ hv
    -- The role decides on which side of the columns the variable lies.
    have hlt : v < numCols := by
      by_cases h : v < numCols
      · exact h
      · rw [Role.initial, if_neg h] at hv
        exact absurd hv (by decide)
    rw [placeOf_ofDimensions_col hlt]
    exact ⟨hlt, inCol_ofDimensions hlt⟩
  basic := by
    intro v hlt hv
    have hge : numCols ≤ v := by
      by_cases h : v < numCols
      · rw [Role.initial, if_pos h] at hv
        exact absurd hv (by decide)
      · omega
    rcases Nat.exists_eq_add_of_le hge with ⟨r, rfl⟩
    rw [placeOf_ofDimensions_row (by omega)]
    exact ⟨by omega, inRow_ofDimensions (by omega)⟩

end Initial

namespace Matches

variable {b : Basis} {maxRows numCols : Nat} {role : Nat → Role}

theorem colVar?_eq (h : b.Matches maxRows numCols role) {c : Nat} (hc : c < numCols) :
    b.colVar? c = some (b.inCol c) := by
  have hlt : c < b.colVar.size := by rw [h.size_colVar]; exact hc
  simp only [inCol, colVar?, Array.getElem?_eq_getElem hlt, Option.getD_some]

theorem rowVar?_eq (h : b.Matches maxRows numCols role) {r : Nat} (hr : r < maxRows) :
    b.rowVar? r = some (b.inRow r) := by
  have hlt : r < b.rowVar.size := by rw [h.size_rowVar]; exact hr
  simp only [inRow, rowVar?, Array.getElem?_eq_getElem hlt, Option.getD_some]

theorem place?_eq (h : b.Matches maxRows numCols role) {v : Nat} (hv : v < numCols + maxRows) :
    b.place? v = some (b.placeOf v) := by
  have hlt : v < b.place.size := by rw [h.size_place]; exact hv
  simp only [placeOf, place?, Array.getElem?_eq_getElem hlt, Option.getD_some]

/-- Rows have different owners. -/
theorem inRow_inj (h : b.Matches maxRows numCols role) {r r' : Nat} (hr : r < maxRows)
    (hr' : r' < maxRows) (heq : b.inRow r = b.inRow r') : r = r' := by
  rw [← (h.row r hr).2.1, heq, (h.row r' hr').2.1]

/-- Columns have different owners. -/
theorem inCol_inj (h : b.Matches maxRows numCols role) {c c' : Nat} (hc : c < numCols)
    (hc' : c' < numCols) (heq : b.inCol c = b.inCol c') : c = c' := by
  rw [← (h.col c hc).2.1, heq, (h.col c' hc').2.1]

/-- No variable owns both a row and a column. -/
theorem inRow_ne_inCol (h : b.Matches maxRows numCols role) {r c : Nat} (hr : r < maxRows)
    (hc : c < numCols) : b.inRow r ≠ b.inCol c :=
  ne_of_roles (h.row r hr).2.2 (h.col c hc).2.2

/-- The owners of rows are the basic variables. -/
theorem mem_rowVar_iff (h : b.Matches maxRows numCols role) {v : Nat} :
    v ∈ b.rowVar ↔ v < numCols + maxRows ∧ role v = .basic := by
  rw [Array.mem_iff_getElem?]
  constructor
  · rintro ⟨r, hr⟩
    have hlt : r < maxRows := by
      rw [← h.size_rowVar]
      exact (Array.getElem?_eq_some_iff.mp hr).1
    have hrow : b.inRow r = v := Option.some.inj ((h.rowVar?_eq hlt).symm.trans hr)
    rw [← hrow]
    exact ⟨(h.row r hlt).1, (h.row r hlt).2.2⟩
  · rintro ⟨hv, hrole⟩
    rcases h.basic v hv hrole with ⟨hlt, hback⟩
    exact ⟨b.placeOf v, (h.rowVar?_eq hlt).trans (congrArg some hback)⟩

/-- The owners of columns are the nonbasic ones. -/
theorem mem_colVar_iff (h : b.Matches maxRows numCols role) {v : Nat} :
    v ∈ b.colVar ↔ v < numCols + maxRows ∧ role v = .nonbasic := by
  rw [Array.mem_iff_getElem?]
  constructor
  · rintro ⟨c, hc⟩
    have hlt : c < numCols := by
      rw [← h.size_colVar]
      exact (Array.getElem?_eq_some_iff.mp hc).1
    have hcol : b.inCol c = v := Option.some.inj ((h.colVar?_eq hlt).symm.trans hc)
    rw [← hcol]
    exact ⟨(h.col c hlt).1, (h.col c hlt).2.2⟩
  · rintro ⟨hv, hrole⟩
    rcases h.nonbasic v hv hrole with ⟨hlt, hback⟩
    exact ⟨b.placeOf v, (h.colVar?_eq hlt).trans (congrArg some hback)⟩

/-- A table that names different owners in different places names none twice. -/
theorem nodup_of_injective {table : Array Nat} {f : Nat → Nat}
    (hread : ∀ i < table.size, table[i]? = some (f i))
    (hinj : ∀ i < table.size, ∀ j < table.size, f i = f j → i = j) : table.toList.Nodup := by
  rw [List.nodup_iff_pairwise_ne, List.pairwise_iff_getElem]
  intro i j hi hj hij heq
  rw [Array.length_toList] at hi hj
  have hread' : ∀ k (hk : k < table.size), table[k] = f k := fun k hk =>
    Option.some.inj ((Array.getElem?_eq_getElem hk).symm.trans (hread k hk))
  rw [Array.getElem_toList, Array.getElem_toList, hread' i hi, hread' j hj] at heq
  exact absurd (hinj i hi j hj heq) (Nat.ne_of_lt hij)

/-- The owners of the columns and then of the rows are all variables, each of
    them once. -/
theorem perm_owners (h : b.Matches maxRows numCols role) :
    (b.colVar.toList ++ b.rowVar.toList).Perm (List.range (numCols + maxRows)) := by
  -- No column shares its owner with another one, and no row either.
  have hcols : b.colVar.toList.Nodup := by
    refine nodup_of_injective (f := b.inCol) (fun c hc => ?_) fun c hc c' hc' heq => ?_
    · exact h.colVar?_eq (by rw [← h.size_colVar]; exact hc)
    · rw [h.size_colVar] at hc hc'
      exact h.inCol_inj hc hc' heq
  have hrows : b.rowVar.toList.Nodup := by
    refine nodup_of_injective (f := b.inRow) (fun r hr => ?_) fun r hr r' hr' heq => ?_
    · exact h.rowVar?_eq (by rw [← h.size_rowVar]; exact hr)
    · rw [h.size_rowVar] at hr hr'
      exact h.inRow_inj hr hr' heq
  -- A variable does not own a row and a column, since it would have both roles.
  have hdisjoint : ∀ v ∈ b.colVar.toList, ∀ w ∈ b.rowVar.toList, v ≠ w := by
    rintro v hv _ hw rfl
    have hnonbasic := (h.mem_colVar_iff.mp (Array.mem_toList_iff.mp hv)).2
    rw [(h.mem_rowVar_iff.mp (Array.mem_toList_iff.mp hw)).2] at hnonbasic
    exact absurd hnonbasic (by decide)
  refine (List.perm_ext_iff_of_nodup (List.nodup_append.mpr ⟨hcols, hrows, hdisjoint⟩)
    List.nodup_range).mpr fun v => ?_
  rw [List.mem_append, Array.mem_toList_iff, Array.mem_toList_iff, h.mem_colVar_iff,
    h.mem_rowVar_iff, List.mem_range]
  cases role v with
  | basic => simp only [reduceCtorEq, and_false, and_true, false_or]
  | nonbasic => simp only [reduceCtorEq, and_false, and_true, or_false]

section Swap

variable {leaving entering : Nat}

/-- The exchange of a basic with a nonbasic variable goes through. That is why an engine may
    take a failed exchange for an index outside a table: in a search there is none. -/
theorem swap?_eq (h : b.Matches maxRows numCols role) (hl : leaving < numCols + maxRows)
    (he : entering < numCols + maxRows) (hlb : role leaving = .basic)
    (hen : role entering = .nonbasic) :
    b.swap? leaving entering
      = some ((b.placeOf leaving, b.placeOf entering), b.swapped leaving entering) := by
  have hrow : b.placeOf leaving < b.rowVar.size := by
    rw [h.size_rowVar]
    exact (h.basic leaving hl hlb).1
  have hcol : b.placeOf entering < b.colVar.size := by
    rw [h.size_colVar]
    exact (h.nonbasic entering he hen).1
  simp only [swap?, h.place?_eq hl, h.place?_eq he, Option.bind_eq_bind, Option.bind_some,
    if_pos (And.intro hrow hcol), swapped]

theorem inCol_swapped (h : b.Matches maxRows numCols role) {c : Nat} (hc : c < numCols) :
    (b.swapped leaving entering).inCol c
      = if c = b.placeOf entering then leaving else b.inCol c := by
  have hlt : c < b.colVar.size := by rw [h.size_colVar]; exact hc
  simp only [inCol, colVar?, swapped, Array.getElem?_setIfInBounds]
  by_cases hcc : c = b.placeOf entering
  · rw [if_pos hcc.symm, if_pos (hcc ▸ hlt), if_pos hcc, Option.getD_some]
  · rw [if_neg (Ne.symm hcc), if_neg hcc]

theorem inRow_swapped (h : b.Matches maxRows numCols role) {r : Nat} (hr : r < maxRows) :
    (b.swapped leaving entering).inRow r
      = if r = b.placeOf leaving then entering else b.inRow r := by
  have hlt : r < b.rowVar.size := by rw [h.size_rowVar]; exact hr
  simp only [inRow, rowVar?, swapped, Array.getElem?_setIfInBounds]
  by_cases hrr : r = b.placeOf leaving
  · rw [if_pos hrr.symm, if_pos (hrr ▸ hlt), if_pos hrr, Option.getD_some]
  · rw [if_neg (Ne.symm hrr), if_neg hrr]

theorem placeOf_swapped (h : b.Matches maxRows numCols role) {v : Nat}
    (hv : v < numCols + maxRows) :
    (b.swapped leaving entering).placeOf v
      = if v = entering then b.placeOf leaving
        else if v = leaving then b.placeOf entering else b.placeOf v := by
  have hlt : v < b.place.size := by rw [h.size_place]; exact hv
  simp only [placeOf, place?, swapped, Array.getElem?_setIfInBounds, Array.size_setIfInBounds]
  by_cases hve : v = entering
  · rw [if_pos hve.symm, if_pos (hve ▸ hlt), if_pos hve, Option.getD_some]
  · rw [if_neg (Ne.symm hve), if_neg hve]
    by_cases hvl : v = leaving
    · rw [if_pos hvl.symm, if_pos (hvl ▸ hlt), if_pos hvl, Option.getD_some]
    · rw [if_neg (Ne.symm hvl), if_neg hvl]

/-- The exchange of a basic with a nonbasic variable keeps the tables in
    agreement, with the roles exchanged. -/
theorem swapped (h : b.Matches maxRows numCols role) (hl : leaving < numCols + maxRows)
    (he : entering < numCols + maxRows) (hlb : role leaving = .basic)
    (hen : role entering = .nonbasic) :
    (b.swapped leaving entering).Matches maxRows numCols (exchangedRole role leaving entering) := by
  have hne := ne_of_roles hlb hen
  rcases h.basic leaving hl hlb with ⟨hrow, hrowl⟩
  rcases h.nonbasic entering he hen with ⟨hcol, hcole⟩
  refine ⟨?_, ?_, ?_, ?_, ?_, ?_, ?_⟩
  · simp only [Basis.swapped, Array.size_setIfInBounds, h.size_colVar]
  · simp only [Basis.swapped, Array.size_setIfInBounds, h.size_rowVar]
  · simp only [Basis.swapped, Array.size_setIfInBounds, h.size_place]
  -- A column keeps its owner, unless it was the one of the entering variable.
  · intro c hc
    rw [h.inCol_swapped hc]
    by_cases hcc : c = b.placeOf entering
    · rw [if_pos hcc, h.placeOf_swapped hl, if_neg hne, if_pos rfl, exchangedRole, if_neg hne,
        if_pos rfl]
      exact ⟨hl, hcc.symm, rfl⟩
    · rcases h.col c hc with ⟨hlt, hplace, hrole⟩
      -- The owner is neither of the two, since their places are others.
      have h₁ : b.inCol c ≠ entering := fun h' => hcc (by rw [← h', hplace])
      have h₂ : b.inCol c ≠ leaving := by
        intro h'
        rw [h', hlb] at hrole
        exact absurd hrole (by decide)
      rw [if_neg hcc, h.placeOf_swapped hlt, if_neg h₁, if_neg h₂, exchangedRole, if_neg h₁,
        if_neg h₂]
      exact ⟨hlt, hplace, hrole⟩
  -- A row keeps its owner, unless it was the one of the leaving variable.
  · intro r hr
    rw [h.inRow_swapped hr]
    by_cases hrr : r = b.placeOf leaving
    · rw [if_pos hrr, h.placeOf_swapped he, if_pos rfl, exchangedRole, if_pos rfl]
      exact ⟨he, hrr.symm, rfl⟩
    · rcases h.row r hr with ⟨hlt, hplace, hrole⟩
      have h₁ : b.inRow r ≠ entering := by
        intro h'
        rw [h', hen] at hrole
        exact absurd hrole (by decide)
      have h₂ : b.inRow r ≠ leaving := fun h' => hrr (by rw [← h', hplace])
      rw [if_neg hrr, h.placeOf_swapped hlt, if_neg h₁, if_neg h₂, exchangedRole, if_neg h₁,
        if_neg h₂]
      exact ⟨hlt, hplace, hrole⟩
  -- What is nonbasic now was so before, or has just left the basis.
  · intro v hv hrole
    rw [h.placeOf_swapped hv]
    by_cases hve : v = entering
    · rw [exchangedRole, if_pos hve] at hrole
      exact absurd hrole (by decide)
    · rw [if_neg hve]
      by_cases hvl : v = leaving
      · rw [if_pos hvl, h.inCol_swapped hcol, if_pos rfl]
        exact ⟨hcol, hvl.symm⟩
      · rw [exchangedRole, if_neg hve, if_neg hvl] at hrole
        rcases h.nonbasic v hv hrole with ⟨hlt, howner⟩
        rw [if_neg hvl, h.inCol_swapped hlt, if_neg, howner]
        · exact ⟨hlt, rfl⟩
        · intro h'
          rw [h', hcole] at howner
          exact hve howner.symm
  -- What is basic now was so before, or has just entered it.
  · intro v hv hrole
    rw [h.placeOf_swapped hv]
    by_cases hve : v = entering
    · rw [if_pos hve, h.inRow_swapped hrow, if_pos rfl]
      exact ⟨hrow, hve.symm⟩
    · rw [if_neg hve]
      by_cases hvl : v = leaving
      · rw [exchangedRole, if_neg hve, if_pos hvl] at hrole
        exact absurd hrole (by decide)
      · rw [exchangedRole, if_neg hve, if_neg hvl] at hrole
        rcases h.basic v hv hrole with ⟨hlt, howner⟩
        rw [if_neg hvl, h.inRow_swapped hlt, if_neg, howner]
        · exact ⟨hlt, rfl⟩
        · intro h'
          rw [h', hrowl] at howner
          exact hvl howner.symm

end Swap

end Matches

end Basis

end BoundedSimplex
