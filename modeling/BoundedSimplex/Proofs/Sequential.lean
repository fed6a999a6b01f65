import Mathlib.Data.List.Sort
import BoundedSimplex.Proofs.Follows

/-!
# The Sequential Engine Follows the Board

Tables of the process as a board.

The sequential engine keeps everything a board has: the tableau, the basis,
one entry for each variable, and in addition the two sets it scans. The sets
say nothing that the roles do not say. They are there so that a scan need not
look at every variable, and because they are ascending the first hit among the
members is the first one among all variables.

Nothing is assumed about the numbers except that none is below itself. The sum
of a row is the one from left to right, starting from zero.

## Main definitions

* `leftSum`: A sum from left to right.
* `Tableau.Describes`: A tableau with the coefficients of a board.
* `Tableau.Sized`: A tableau of the size of a board.
* `Bounds.Table.Shows`: A table with the variables of a board.
* `Sequential.Shows`: The tables of the engine as a board.
* `Sequential.Holds`: The same, apart from the sets.
* `Sequential.board`: The workspace as a board.

## Theorems

* `VarSet.members_eq_filter`: A set is determined by its members.
* `Sequential.updateRows_gives`: Some rows, one after the other.
* `Sequential.follows`: The engine follows the board.
-/

namespace BoundedSimplex

/-- A sum from left to right, starting from zero. In floating point the zero at the start is
    not without effect, as it makes a negative zero a positive one. -/
def leftSum {α : Type} [Scalar α] : Summation α :=
  fun n item => (List.range n).foldl (fun sum c => sum + item c) 0

/-- All a board knows about one variable. -/
def Board.entry {α : Type} (b : Board α) (v : Nat) : Variable α :=
  ⟨b.interval v, b.value v, b.role v⟩

/-- A tableau with the coefficients of a board. -/
structure Tableau.Describes {α : Type} (t : Tableau α) (b : Board α) : Prop where
  maxRows : t.maxRows = b.maxRows
  numRows : t.numRows = b.numRows
  numCols : t.numCols = b.numCols
  coeff : t.Shows b.coeff

/-- A tableau of the size of a board. -/
structure Tableau.Sized {α : Type} (t : Tableau α) (b : Board α) : Prop where
  maxRows : t.maxRows = b.maxRows
  numRows : t.numRows = b.numRows
  numCols : t.numCols = b.numCols

theorem Tableau.Describes.sized {α : Type} {t : Tableau α} {b : Board α} (h : t.Describes b) :
    t.Sized b :=
  ⟨h.maxRows, h.numRows, h.numCols⟩

theorem Tableau.Sized.of_same {α : Type} {t : Tableau α} {b b' : Board α} (h : t.Sized b)
    (hsame : b'.Same b) : t.Sized b' :=
  ⟨h.maxRows.trans hsame.maxRows.symm, h.numRows.trans hsame.numRows.symm,
    h.numCols.trans hsame.numCols.symm⟩

theorem Tableau.Describes.coeff?_eq {α : Type} {t : Tableau α} {b : Board α} (h : t.Describes b)
    {r c : Nat} (hr : r < b.maxRows) (hc : c < b.numCols) : t.coeff? r c = some (b.coeff r c) := by
  rw [← h.maxRows] at hr
  rw [← h.numCols] at hc
  exact h.coeff r hr c hc

theorem Tableau.Describes.get {α : Type} {t : Tableau α} {b : Board α} (h : t.Describes b)
    {r c : Nat} (hr : r < b.maxRows) (hc : c < b.numCols) : t.get r c = .ok (b.coeff r c) := by
  have hcell := h.coeff?_eq hr hc
  rw [← h.maxRows] at hr
  rw [← h.numCols] at hc
  rw [Tableau.coeff?_eq_cell? hc] at hcell
  simp only [Tableau.get, Error.checkIndex, if_pos hr, if_pos hc, hcell]
  rfl

open Tableau in
/-- There is one tableau with the coefficients of a board. -/
theorem Tableau.Describes.unique {α : Type} {t t' : Tableau α} {b : Board α} (h : t.Describes b)
    (h' : t'.Describes b) : t = t' := by
  -- A position of the array is a row and a column, so the cells of a board determine the array.
  have hread : ∀ {u : Tableau α}, u.Describes b → ∀ i < b.maxRows * b.numCols,
      u.cells[i]? = some (b.coeff (i / b.numCols) (i % b.numCols)) := by
    intro u hu i hi
    have hpos : 0 < b.numCols := Nat.pos_of_mul_pos_left (Nat.zero_lt_of_lt hi)
    have hc : i % b.numCols < b.numCols := Nat.mod_lt i hpos
    have hcell := hu.coeff?_eq ((Nat.div_lt_iff_lt_mul hpos).mpr hi) hc
    rw [coeff?_eq_cell? (by rw [hu.numCols]; exact hc), hu.numCols, Nat.div_add_mod'] at hcell
    exact hcell
  have hsize : ∀ {u : Tableau α}, u.Describes b → u.cells.size = b.maxRows * b.numCols := by
    intro u hu
    rw [u.size_cells, hu.maxRows, hu.numCols]
  have hcells : t.cells = t'.cells := by
    refine Array.ext_getElem? fun i => ?_
    by_cases hi : i < b.maxRows * b.numCols
    · rw [hread h i hi, hread h' i hi]
    · have hle := Nat.le_of_not_lt hi
      rw [Array.getElem?_eq_none (by rw [hsize h]; exact hle),
        Array.getElem?_eq_none (by rw [hsize h']; exact hle)]
  have hrows := h.maxRows.trans h'.maxRows.symm
  have htaken := h.numRows.trans h'.numRows.symm
  have hcols := h.numCols.trans h'.numCols.symm
  cases t
  cases t'
  simp only at hcells hrows htaken hcols
  subst hcells hrows htaken hcols
  rfl

/-! ### The table of variables -/

namespace Bounds.Table

variable {α : Type}

/-- A table with the variables of a board: as many, each with its interval, value and role,
    and the same tolerance. -/
structure Shows (t : Table α) (b : Board α) : Prop where
  size : t.entries.size = b.numVars
  entry : ∀ v < b.numVars, t.entries[v]? = some (b.entry v)
  tolerance : t.tolerance = b.tolerance

variable {t : Table α} {b b' : Board α} {v : Nat}

theorem Shows.at?_eq (h : t.Shows b) (hv : v < b.numVars) : t.at? v = .ok (b.entry v) := by
  rw [at?, h.entry v hv]

theorem Shows.read_gives {β : Type} (h : t.Shows b) (hv : v < b.numVars) (f : Variable α → β) :
    (read v f).Gives t fun x t' => x = f (b.entry v) ∧ t' = t := by
  refine Exec.Yields.state.gives ?_
  refine Exec.Gives.check (a := f (b.entry v)) ?_ ⟨rfl, rfl⟩
  rw [h.at?_eq hv]
  rfl

/-- A change of one entry, as a change of the board at one variable. -/
theorem Shows.change_gives (h : t.Shows b) (hv : v < b.numVars) {f : Variable α → Variable α}
    (hnum : b'.numVars = b.numVars) (htol : b'.tolerance = b.tolerance)
    (hnew : b'.entry v = f (b.entry v)) (hrest : ∀ w, w ≠ v → b'.entry w = b.entry w) :
    (change v f).Gives t fun _ t' => t'.Shows b' := by
  refine Exec.Yields.state.gives ?_
  have hlt : v < t.entries.size := by rw [h.size]; exact hv
  refine (Exec.Yields.check (Error.checkIndex_eq_ok_iff.mpr hlt)).gives ?_
  refine Exec.Gives.update ⟨?_, fun w hw => ?_, by rw [htol]; exact h.tolerance⟩
  · rw [Array.size_modify, h.size, hnum]
  · rw [hnum] at hw
    rw [Array.getElem?_modify, h.entry w hw]
    by_cases hvw : v = w
    · rw [if_pos hvw, Option.map_some, ← hvw, hnew]
    · rw [if_neg hvw, hrest w (Ne.symm hvw)]

/-- Replacing one value, as a change of one entry. -/
theorem Shows.withValue_gives (h : t.Shows b) (hv : v < b.numVars) {f : Variable α → Variable α}
    {x : α} (hf : f (b.entry v) = { b.entry v with value := x }) :
    (change v f).Gives t fun _ t' => t'.Shows (b.withValue v x) := by
  refine h.change_gives hv rfl rfl ?_ fun u hu => ?_
  · rw [hf]
    simp only [Board.entry, Board.withValue, if_true]
  · simp only [Board.entry, Board.withValue, if_neg hu]

/-- A correction moves the two variables. -/
theorem Shows.apply_gives [Scalar α] (h : t.Shows b) {leaving entering : Nat}
    (hl : leaving < b.numVars) (he : entering < b.numVars) (hne : leaving ≠ entering) :
    ((b.correction leaving).apply entering leaving (b.cross leaving entering) :
      Exec (Table α) Unit).Gives t fun _ t' => t'.Shows (b.corrected leaving entering) := by
  -- The entering variable is written first. That it is not the leaving one is what keeps the
  -- entry of the other.
  have hsame : (b.withValue entering (b.moved leaving entering)).entry leaving
      = b.entry leaving := by
    simp only [Board.entry, Board.withValue, if_neg hne]
  unfold Correction.apply
  cases hdir : (b.correction leaving).direction with
  | increase =>
      refine (h.withValue_gives (x := b.moved leaving entering) he ?_).bind fun _ t₁ h₁ => ?_
      · simp only [Board.moved, Correction.shift, hdir, Board.entry]
      · refine h₁.withValue_gives (x := b.landing leaving) hl ?_
        rw [hsame]
        simp only [Board.landing, Correction.shift, hdir, Board.entry]
  | decrease =>
      refine (h.withValue_gives (x := b.moved leaving entering) he ?_).bind fun _ t₁ h₁ => ?_
      · simp only [Board.moved, Correction.shift, hdir, Board.entry]
      · refine h₁.withValue_gives (x := b.landing leaving) hl ?_
        rw [hsame]
        simp only [Board.landing, Correction.shift, hdir, Board.entry]

end Bounds.Table

/-! ### The sets -/

/-- A set is determined by its members: it is the list of all numbers that are
    members, in ascending order. -/
theorem VarSet.members_eq_filter {s : VarSet} {n : Nat} {p : Nat → Bool}
    (h : ∀ v, v ∈ s ↔ v < n ∧ p v = true) : s.members = (List.range n).filter p := by
  refine List.Pairwise.eq_of_mem_iff s.ascending (List.pairwise_lt_range.filter p) fun v => ?_
  rw [List.mem_filter, List.mem_range]
  exact h v

/-- The first hit among the members is the first one among all numbers. -/
theorem VarSet.find?_members {s : VarSet} {n : Nat} {p : Nat → Bool}
    (h : ∀ v, v ∈ s ↔ v < n ∧ p v = true) (q : Nat → Bool) :
    s.members.find? q = (List.range n).find? fun v => p v && q v := by
  rw [members_eq_filter h, List.find?_filter]
  simp only [Bool.decide_and, Bool.decide_eq_true]

namespace Sequential

variable {α : Type}

/-- The tables of the engine as a board. The two sets are determined by the roles, and the
    scans go through the sets. -/
structure Shows (w : Workspace (Sequential α) α) (b : Board α) : Prop where
  tableau : w.tableau.Describes b
  basis : w.basis = b.basis
  bounds : w.engine.bounds.Shows b
  basic : ∀ v, v ∈ w.engine.basic ↔ v < b.numVars ∧ decide (b.role v = .basic) = true
  nonbasic : ∀ v, v ∈ w.engine.nonbasic ↔ v < b.numVars ∧ decide (b.role v = .nonbasic) = true

/-- The tables of the engine as a board, whatever the sets say. Recomputing rows does not
    look at the sets, and in a workspace that nobody searched they need not agree with the
    roles. -/
structure Holds (w : Workspace (Sequential α) α) (b : Board α) : Prop where
  tableau : w.tableau.Describes b
  basis : w.basis = b.basis
  bounds : w.engine.bounds.Shows b

variable {w : Workspace (Sequential α) α} {b b' : Board α} {v : Nat}

theorem Shows.holds (h : Shows w b) : Holds w b := ⟨h.tableau, h.basis, h.bounds⟩

/-- A change of one entry leaves the sets as they were. -/
theorem change_gives {s : Sequential α} (h : s.bounds.Shows b) (hv : v < b.numVars)
    {f : Variable α → Variable α} (hnum : b'.numVars = b.numVars)
    (htol : b'.tolerance = b.tolerance) (hnew : b'.entry v = f (b.entry v))
    (hrest : ∀ u, u ≠ v → b'.entry u = b.entry u) :
    (Exec.focus (·.bounds) (fun t s => { s with bounds := t }) (Bounds.Table.change v f) :
      Exec (Sequential α) Unit).Gives s
      fun _ s' => s'.bounds.Shows b' ∧ s'.basic = s.basic ∧ s'.nonbasic = s.nonbasic :=
  Exec.Gives.focus ((h.change_gives hv hnum htol hnew hrest).mono fun _ _ ht => ⟨ht, rfl, rfl⟩)

/-! ### The sets after an exchange -/

section Members

variable {leaving entering : Nat}

/-- The basic variables after an exchange. -/
theorem mem_basic_exchange (h : Shows w b) (he : entering < b.numVars) (v : Nat) :
    v ∈ (w.engine.exchangeMembers leaving entering).basic ↔
      v < b.numVars ∧ decide (exchangedRole b.role leaving entering v = .basic) = true := by
  show v ∈ (w.engine.basic.erase leaving).insert entering ↔ _
  rw [VarSet.mem_insert, VarSet.mem_erase, h.basic, exchangedRole]
  by_cases hve : v = entering
  · simp only [hve, true_or, if_true, he, decide_true, and_self]
  · rw [if_neg hve]
    -- The variable that left was erased before the one that entered was put in, and they are not
    -- the same.
    by_cases hvl : v = leaving
    · rw [if_pos hvl]
      constructor
      · rintro (heq | ⟨-, hne⟩)
        · exact absurd heq hve
        · exact absurd hvl hne
      · rintro ⟨-, hrole⟩
        exact absurd hrole (by decide)
    · simp only [hve, hvl, false_or, ne_eq, not_false_eq_true, and_true, if_false]

/-- The nonbasic variables after an exchange. -/
theorem mem_nonbasic_exchange (h : Shows w b) (hl : leaving < b.numVars) (hne : leaving ≠ entering)
    (v : Nat) : v ∈ (w.engine.exchangeMembers leaving entering).nonbasic ↔
      v < b.numVars ∧ decide (exchangedRole b.role leaving entering v = .nonbasic) = true := by
  show v ∈ (w.engine.nonbasic.erase entering).insert leaving ↔ _
  rw [VarSet.mem_insert, VarSet.mem_erase, h.nonbasic, exchangedRole]
  -- Here it is the other way round.
  by_cases hve : v = entering
  · rw [if_pos hve]
    constructor
    · rintro (heq | ⟨-, hne'⟩)
      · exact absurd (heq.symm.trans hve) hne
      · exact absurd hve hne'
    · rintro ⟨-, hrole⟩
      exact absurd hrole (by decide)
  · rw [if_neg hve]
    by_cases hvl : v = leaving
    · simp only [hvl, true_or, if_true, hl, decide_true, and_self]
    · simp only [hve, hvl, false_or, ne_eq, not_false_eq_true, and_true, if_false]

end Members

variable [Scalar α]

/-! ### The tables as a board -/

/-- The workspace as a board. -/
def board (w : Workspace (Sequential α) α) (role : Nat → Role) : Board α where
  maxRows := w.tableau.maxRows
  numRows := w.tableau.numRows
  numCols := w.tableau.numCols
  coeff r c := (w.tableau.coeff? r c).getD 0
  basis := w.basis
  interval v := (w.engine.bounds.entries[v]?).elim .nonnegative (·.interval)
  value v := (w.engine.bounds.entries[v]?).elim 0 (·.value)
  role := role
  tolerance := w.engine.bounds.tolerance

/-- Whatever is in the tables, they are those of a board. -/
theorem holds_board {role : Nat → Role}
    (hsize : w.engine.bounds.entries.size = w.tableau.numCols + w.tableau.maxRows)
    (hrole : ∀ v x, w.engine.bounds.entries[v]? = some x → x.role = role v) :
    Holds w (board w role) := by
  refine ⟨⟨rfl, rfl, rfl, fun r hr c hc => ?_⟩, rfl, hsize, fun v hv => ?_, rfl⟩
  -- Every cell and every entry exists, so reading with a default never gives the default.
  · have hlt : r * w.tableau.numCols + c < w.tableau.cells.size := by
      rw [w.tableau.size_cells]
      exact cellIndex_lt hr hc
    show w.tableau.coeff? r c = some ((w.tableau.coeff? r c).getD 0)
    rw [Tableau.coeff?_eq_cell? hc, Tableau.cell?, Array.getElem?_eq_getElem hlt, Option.getD_some]
  · have hlt : v < w.engine.bounds.entries.size := by
      rw [hsize]
      exact hv
    have hentry := Array.getElem?_eq_getElem hlt
    simp only [Board.entry, board, hentry, Option.elim_some, ← hrole v _ hentry]

/-! ### The scans -/

theorem firstBroken_eq {t : Bounds.Table α} (h : t.Shows b) {l : List Nat}
    (hl : ∀ v ∈ l, v < b.numVars) : firstBroken t l = .ok (l.find? b.isBroken) := by
  induction l with
  | nil => rfl
  | cons v rest ih =>
      have hrest := ih fun u hu => hl u (List.mem_cons_of_mem _ hu)
      -- The tolerance of the table is that of the board.
      have hbroken : (b.entry v).interval.isBroken t.tolerance (b.entry v).value
          = b.isBroken v := by
        rw [h.tolerance]
        rfl
      rw [firstBroken, h.at?_eq (hl v List.mem_cons_self), List.find?_cons]
      simp only [Bind.bind, Except.bind, hbroken]
      cases b.isBroken v with
      | true => rfl
      | false => exact hrest

theorem coefficientIfAccepted_eq (h : Shows w b) (hv : b.Valid) {leaving : Nat}
    (hl : leaving < b.numVars) (hlb : b.role leaving = .basic) (hlt : v < b.numVars)
    (hvn : b.role v = .nonbasic) :
    coefficientIfAccepted w (b.basis.placeOf leaving) (b.correction leaving) v
      = .ok (if b.suits leaving v then some (b.cross leaving v) else none) := by
  have hcoeff := h.tableau.get (hv.basis.basic leaving hl hlb).1 (hv.basis.nonbasic v hlt hvn).1
  rw [coefficientIfAccepted, h.basis, hv.basis.place?_eq hlt]
  simp only [unguarded, Bind.bind, Except.bind, hcoeff, h.bounds.at?_eq hlt, Stop.orError]
  show (if b.suits leaving v then _ else _) = _
  cases b.suits leaving v with
  | true => rfl
  | false => rfl

theorem firstSuitable_eq (h : Shows w b) (hv : b.Valid) {leaving : Nat}
    (hl : leaving < b.numVars) (hlb : b.role leaving = .basic) {l : List Nat}
    (hmem : ∀ v ∈ l, v < b.numVars ∧ b.role v = .nonbasic) :
    firstSuitable w (b.basis.placeOf leaving) (b.correction leaving) l
      = .ok ((l.find? (b.suits leaving)).map fun v => (v, b.cross leaving v)) := by
  induction l with
  | nil => rfl
  | cons v rest ih =>
      have hrest := ih fun u hu => hmem u (List.mem_cons_of_mem _ hu)
      rcases hmem v List.mem_cons_self with ⟨hlt, hvn⟩
      rw [firstSuitable, coefficientIfAccepted_eq h hv hl hlb hlt hvn, List.find?_cons]
      simp only [Bind.bind, Except.bind]
      cases b.suits leaving v with
      | true => rfl
      | false => exact hrest

/-- The scan of the basic variables. -/
theorem checkBounds_gives (h : Shows w b) :
    (checkBounds : Exec (Workspace (Sequential α) α) _).Gives w
      fun r w' => r = b.firstBroken ∧ Shows w' b := by
  refine Exec.Yields.state.gives ?_
  refine Exec.Gives.check ?_ ⟨rfl, h⟩
  rw [firstBroken_eq h.bounds fun v hv => ((h.basic v).mp hv).1, VarSet.find?_members h.basic]
  rfl

theorem firstSuitable_members (h : Shows w b) (hv : b.Valid) {leaving : Nat}
    (hl : leaving < b.numVars) (hlb : b.role leaving = .basic) :
    firstSuitable w (b.basis.placeOf leaving) (b.correction leaving) w.engine.nonbasic.members
      = .ok ((b.firstSuitable leaving).map fun v => (v, b.cross leaving v)) := by
  rw [firstSuitable_eq h hv hl hlb fun v hmem => ?_, VarSet.find?_members h.nonbasic]
  · rfl
  · exact ⟨((h.nonbasic v).mp hmem).1, of_decide_eq_true ((h.nonbasic v).mp hmem).2⟩

/-- What comes before the correction. -/
theorem findSuitable_leads (h : Shows w b) (hv : b.Valid) {leaving : Nat}
    (hb : b.firstBroken = some leaving) :
    (findSuitable leaving : Exec (Workspace (Sequential α) α) _).Leads w
      (match (b.firstSuitable leaving).map fun v => (v, b.cross leaving v) with
        | none => pure none
        | some (entering, coeff) => do
          Workspace.onEngine ((b.correction leaving).apply entering leaving coeff)
          pure (some entering)) fun w' => w' = w := by
  rcases Board.firstBroken_eq_some hb with ⟨hl, hlb, -, -⟩
  refine Exec.Yields.state.leads ?_
  refine (Exec.Yields.check (h.bounds.at?_eq hl)).leads ?_
  have hplace : w.basis.place? leaving = some (b.basis.placeOf leaving) := by
    rw [h.basis, hv.basis.place?_eq hl]
  refine (Exec.Yields.entry hplace).leads ?_
  refine (Exec.Yields.ofExcept (firstSuitable_members h hv hl hlb)).leads ?_
  exact Exec.Leads.refl rfl

/-- A correction moves the two variables. -/
theorem apply_gives {s : Sequential α} (h : s.bounds.Shows b) {leaving entering : Nat}
    (hl : leaving < b.numVars) (he : entering < b.numVars) (hne : leaving ≠ entering) :
    ((b.correction leaving).apply entering leaving (b.cross leaving entering) :
      Exec (Sequential α) Unit).Gives s fun _ s' =>
        s'.bounds.Shows (b.corrected leaving entering) ∧ s'.basic = s.basic ∧
          s'.nonbasic = s.nonbasic := by
  have hfocus : ((b.correction leaving).apply entering leaving (b.cross leaving entering) :
      Exec (Sequential α) Unit) = Exec.focus (·.bounds) (fun t s => { s with bounds := t })
        ((b.correction leaving).apply entering leaving (b.cross leaving entering)) := by
    symm
    unfold Correction.apply
    cases (b.correction leaving).direction with
    | increase | decrease =>
        exact Exec.focus_bind (fun s : Sequential α => s.bounds) (fun t s => { s with bounds := t })
          (fun _ _ => rfl) (fun _ _ _ => rfl) _ _
  rw [hfocus]
  exact Exec.Gives.focus ((h.apply_gives hl he hne).mono fun _ _ ht => ⟨ht, rfl, rfl⟩)

/-- The scan of the nonbasic variables finds nothing. -/
theorem findSuitable_none (h : Shows w b) (hv : b.Valid) {leaving : Nat}
    (hb : b.firstBroken = some leaving) (hs : b.firstSuitable leaving = none) :
    (findSuitable leaving : Exec (Workspace (Sequential α) α) _).Gives w
      fun r w' => r = none ∧ Shows w' b := by
  refine (findSuitable_leads h hv hb).gives ?_
  rintro w' rfl
  rw [hs]
  exact Exec.Gives.pure ⟨rfl, h⟩

/-- The scan finds a variable, and the correction is carried out. -/
theorem findSuitable_some (h : Shows w b) (hv : b.Valid) {leaving entering : Nat}
    (hex : b.Exchanges leaving entering) :
    (findSuitable leaving : Exec (Workspace (Sequential α) α) _).Gives w
      fun r w' => r = some entering ∧ Shows w' (b.corrected leaving entering) := by
  refine (findSuitable_leads h hv hex.broken).gives ?_
  rintro w' rfl
  rw [hex.suitable]
  refine Exec.Gives.bind (P := fun _ w'' => Shows w'' (b.corrected leaving entering))
    (Exec.Gives.focus ((apply_gives h.bounds hex.leaving_lt hex.entering_lt hex.ne).mono ?_)) ?_
  · rintro _ e ⟨hbounds, hbasic, hnonbasic⟩
    refine ⟨⟨h.tableau.maxRows, h.tableau.numRows, h.tableau.numCols, h.tableau.coeff⟩, h.basis,
      hbounds, ?_, ?_⟩
    · rw [hbasic]
      exact h.basic
    · rw [hnonbasic]
      exact h.nonbasic
  · exact fun _ w'' hw => Exec.Gives.pure ⟨rfl, hw⟩

/-! ### The exchange -/

section Exchange

variable {leaving entering : Nat}

/-- The roles of the two variables are exchanged one after the other. -/
theorem setRoles_gives {s : Sequential α} (h : s.bounds.Shows b) (hl : leaving < b.numVars)
    (he : entering < b.numVars) :
    (BoundStore.setRole leaving .nonbasic : Exec (Sequential α) Unit).Gives s fun _ s' =>
      (BoundStore.setRole entering .basic : Exec (Sequential α) Unit).Gives s' fun _ s'' =>
        s''.bounds.Shows (b.exchanged leaving entering) ∧ s''.basic = s.basic ∧
          s''.nonbasic = s.nonbasic := by
  let b₁ : Board α :=
    { b with role := fun v => if v = leaving then .nonbasic else b.role v }
  have hfirst : (BoundStore.setRole leaving .nonbasic : Exec (Sequential α) Unit).Gives s
      fun _ s' => s'.bounds.Shows b₁ ∧ s'.basic = s.basic ∧ s'.nonbasic = s.nonbasic := by
    refine change_gives h hl rfl rfl ?_ fun u hu => ?_
    · simp only [b₁, Board.entry, if_true]
    · simp only [b₁, Board.entry, if_neg hu]
  refine hfirst.mono ?_
  rintro _ s' ⟨h', hbasic, hnonbasic⟩
  rw [← hbasic, ← hnonbasic]
  refine change_gives h' he rfl rfl ?_ fun u hu => ?_
  · simp only [b₁, Board.entry, Board.exchanged, exchangedRole, if_true]
  · simp only [b₁, Board.entry, Board.exchanged, exchangedRole, if_neg hu]

/-- The exchange of two variables in the tableau, the basis, the sets and the
    roles. -/
theorem pivot_gives (h : Shows w b) (hm : b.basis.Matches b.maxRows b.numCols b.role)
    (hle : b.numRows ≤ b.maxRows) (hl : leaving < b.numVars) (he : entering < b.numVars)
    (hlb : b.role leaving = .basic) (hen : b.role entering = .nonbasic)
    (hrow : b.basis.placeOf leaving < b.numRows) :
    (pivot leaving entering : Exec (Workspace (Sequential α) α) _).Gives w
      fun _ w' => Shows w' (b.exchanged leaving entering) := by
  have hne := ne_of_roles hlb hen
  have hcol : b.basis.placeOf entering < b.numCols := (hm.nonbasic entering he hen).1
  have hplace : ∀ v < b.numVars, w.basis.place? v = some (b.basis.placeOf v) := by
    intro v hlt
    rw [h.basis, hm.place?_eq hlt]
  have hswap := hm.swap?_eq hl he hlb hen
  nth_rewrite 1 [← h.basis] at hswap
  have hrow' : b.basis.placeOf leaving < w.tableau.numRows := by rw [h.tableau.numRows]; exact hrow
  have hcol' : b.basis.placeOf entering < w.tableau.numCols := by rw [h.tableau.numCols]; exact hcol
  have hcap : w.tableau.numRows ≤ w.tableau.maxRows := by
    rw [h.tableau.numRows, h.tableau.maxRows]
    exact hle
  rcases Tableau.exchange?_shows hrow' hcap hcol' h.tableau.coeff with ⟨u, hu, hshape, hshows⟩
  refine Exec.Yields.state.gives ?_
  refine (Exec.Yields.entry (hplace _ hl)).gives ?_
  refine (Exec.Yields.entry (hplace _ he)).gives ?_
  refine (Exec.Yields.entry hu).gives ?_
  refine Exec.Yields.update.gives ?_
  refine (Exec.Yields.entry hswap).gives ?_
  refine Exec.Yields.update.gives ?_
  refine Exec.Gives.bind (P := fun _ w' =>
    (Workspace.onEngine (BoundStore.setRole entering .basic) :
      Exec (Workspace (Sequential α) α) Unit).Gives w' fun _ w'' =>
        Shows w'' (b.exchanged leaving entering)) (Exec.Gives.focus
          ((setRoles_gives (s := w.engine.exchangeMembers leaving entering) h.bounds hl he).mono
            ?_)) fun _ w' hw => hw
  intro _ e hrole
  refine Exec.Gives.focus (hrole.mono ?_)
  rintro _ e' ⟨hbounds, hbasic, hnonbasic⟩
  refine ⟨⟨hshape.maxRows.trans h.tableau.maxRows, hshape.numRows.trans h.tableau.numRows,
    hshape.numCols.trans h.tableau.numCols, ?_⟩, rfl, hbounds, ?_, ?_⟩
  · rw [h.tableau.numRows] at hshows
    exact hshows
  · rw [hbasic]
    exact mem_basic_exchange h he
  · rw [hnonbasic]
    exact mem_nonbasic_exchange h hl hne

end Exchange

/-! ### The values of the rows -/

section Rows

variable {role : Nat → Role}

/-- The value of a row is the sum of its products from left to right. -/
theorem rowValue_eq (h : Holds w b) (hm : b.basis.Matches b.maxRows b.numCols role) {r : Nat}
    (hr : r < b.maxRows) : rowValue w r = some (leftSum b.numCols (b.products r)) := by
  have hitem : ∀ c < b.numCols, ∀ sum : α, (do
      let var ← w.basis.colVar? c
      let v ← w.engine.bounds.entries[var]?
      let coeff ← w.tableau.cell? (r * w.tableau.numCols + c)
      some (sum + v.value * coeff)) = some (sum + b.products r c) := by
    intro c hc sum
    have hcell := h.tableau.coeff r (by rw [h.tableau.maxRows]; exact hr) c
      (by rw [h.tableau.numCols]; exact hc)
    rw [Tableau.coeff?_eq_cell? (by rw [h.tableau.numCols]; exact hc)] at hcell
    rw [h.basis, hm.colVar?_eq hc]
    simp only [Option.bind_eq_bind, Option.bind_some, h.bounds.entry _ (hm.col c hc).1, hcell,
      Board.products, if_pos hc, Board.entry]
  have hfold : ∀ (l : List Nat), (∀ c ∈ l, c < b.numCols) → ∀ sum : α,
      l.foldlM (fun sum c => do
        let var ← w.basis.colVar? c
        let v ← w.engine.bounds.entries[var]?
        let coeff ← w.tableau.cell? (r * w.tableau.numCols + c)
        some (sum + v.value * coeff)) sum
        = some (l.foldl (fun sum c => sum + b.products r c) sum) := by
    intro l
    induction l with
    | nil => exact fun _ _ => rfl
    | cons c rest ih =>
        intro hl sum
        rw [List.foldlM_cons, hitem c (hl c List.mem_cons_self), List.foldl_cons]
        exact ih (fun c' hc' => hl c' (List.mem_cons_of_mem _ hc')) _
  rw [rowValue, h.tableau.numCols]
  rw [h.tableau.numCols] at hfold
  exact hfold _ (fun c hc => List.mem_range.mp hc) 0

/-- One row is recomputed. -/
theorem updateRow_gives (h : Holds w b) (hm : b.basis.Matches b.maxRows b.numCols role) {r : Nat}
    (hr : r < b.maxRows) :
    (updateRow r : Exec (Workspace (Sequential α) α) Unit).Gives w fun _ w' =>
      Holds w' (b.recomputedRow leftSum r) ∧ w'.engine.basic = w.engine.basic ∧
        w'.engine.nonbasic = w.engine.nonbasic := by
  have hrow : w.basis.rowVar? r = some (b.basis.inRow r) := by
    rw [h.basis, hm.rowVar?_eq hr]
  refine Exec.Yields.state.gives ?_
  refine (Exec.Yields.entry (rowValue_eq h hm hr)).gives ?_
  refine (Exec.Yields.entry hrow).gives ?_
  refine Exec.Gives.focus (Exec.Gives.focus
    ((h.bounds.withValue_gives (hm.row r hr).1 rfl).mono fun _ t ht => ?_))
  exact ⟨⟨⟨h.tableau.maxRows, h.tableau.numRows, h.tableau.numCols, h.tableau.coeff⟩, h.basis, ht⟩,
    rfl, rfl⟩

/-- Some rows are recomputed, one after the other. The roles in the tables play no part in
    it, only that the basis agrees with some roles. -/
theorem updateRows_gives (h : Holds w b) (hm : b.basis.Matches b.maxRows b.numCols role)
    {rows : List Nat} (hlt : ∀ r ∈ rows, r < b.maxRows) :
    (updateRows rows : Exec (Workspace (Sequential α) α) Unit).Gives w fun _ w' =>
      Holds w' (b.recomputedRows leftSum rows) ∧ w'.engine.basic = w.engine.basic ∧
        w'.engine.nonbasic = w.engine.nonbasic := by
  refine Board.forM_recomputedRows (fun w' b' => Holds w' b' ∧ w'.engine.basic = w.engine.basic ∧
    w'.engine.nonbasic = w.engine.nonbasic) ?_ ⟨h, rfl, rfl⟩
  rintro r hr w₁ x ⟨h₁, hbasic, hnonbasic⟩
  refine (updateRow_gives h₁ hm (hlt r hr)).mono ?_
  rintro _ w₂ ⟨h₂, hbasic', hnonbasic'⟩
  exact ⟨h₂, hbasic'.trans hbasic, hnonbasic'.trans hnonbasic⟩

end Rows

theorem updateAssignment_gives (h : Shows w b) (hv : b.Valid) :
    (Engine.updateAssignment : Exec (Workspace (Sequential α) α) Unit).Gives w fun _ w' =>
      Shows w' (b.recomputed leftSum) := by
  refine Exec.Yields.state.gives ?_
  rw [h.tableau.numRows, ← hv.recomputedRows_range]
  refine (updateRows_gives h.holds hv.basis fun r hr =>
    Nat.lt_of_lt_of_le (List.mem_range.mp hr) hv.numRows_le).mono ?_
  rintro _ w' ⟨h', hbasic, hnonbasic⟩
  rw [hv.recomputedRows_range] at h' ⊢
  refine ⟨h'.tableau, h'.basis, h'.bounds, ?_, ?_⟩
  · rw [hbasic]
    exact h.basic
  · rw [hnonbasic]
    exact h.nonbasic

/-- The engine follows the board, and nothing keeps it from summing rows. There is nothing
    to be made ready, so the two ways to show a board are one. -/
theorem follows [StrictScalar α] :
    Engine.Follows (β := Sequential α) (leftSum (α := α)) (fun _ => none) Shows Shows where
  prepare _ _ h _ := Exec.Gives.pure h
  checkBounds _ _ h _ := checkBounds_gives h
  findNone _ _ _ h hv hb hs := findSuitable_none h hv hb hs
  findSome _ _ _ _ h hv hex := findSuitable_some h hv hex
  pivot _ _ _ _ hv hex h :=
    pivot_gives h hv.basis hv.numRows_le hex.leaving_lt hex.entering_lt hex.leaving_basic
      hex.entering_nonbasic (hex.row_lt hv)
  update _ _ h hv _ := updateAssignment_gives h hv
  updateStuck _ _ _ _ _ hstuck _ := nomatch hstuck

end Sequential

end BoundedSimplex
