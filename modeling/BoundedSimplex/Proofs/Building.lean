import BoundedSimplex.Proofs.Sequential

/-!
# Building a System

The system a caller described, and the board it begins with.

A caller makes a solver and then adds constraints and changes bounds, in any
order and as often as there is room. Some of these calls are refused, and the
caller may go on after that. `Problem` is what was described by all calls
together: the rows that were accepted and the bounds as they were set last. A
call that is refused describes nothing.

Every search begins on the board of the problem, where the problem variables
own the columns, the slacks own the rows and everything lies at zero. The
values do not depend on the bounds, and nothing moves a variable when its
bounds are changed.

Engines differ in where they keep bounds, so what an engine has to do while a
system is built is a contract, `Engine.Builds`.

## Main definitions

* `Problem`: What the calls described.
* `Problem.board`: The board a search begins with.
* `BuildCall`, `Solver.build`: The calls, some of which may be refused.
* `Engine.Builds`: What an engine has to do.

## Theorems

* `Problem.valid_board`: The bookkeeping to begin with.
* `Solver.build_gives`: The solver stands at the board of the problem.
* `Sequential.builds`: The sequential engine does what it has to.
* `Solver.fresh_of_sequential`: The solver a caller is given.
-/

namespace BoundedSimplex

/-- A change of the bounds of one variable. A store makes it in its own way, but every store
    comes to the same interval. -/
inductive BoundEdit (α : Type) where
  | lower (x : Option α)
  | upper (x : Option α)
  | both (i : Interval α)

/-- A call that describes a part of a system. -/
inductive BuildCall (α : Type) where
  | constraint (coeffs : Array α)
  | bounds (var : Nat) (edit : BoundEdit α)

namespace BoundEdit

variable {σ α : Type}

/-- The bounds after a change. -/
def on (i : Interval α) : BoundEdit α → Interval α
  | .lower x => { i with lower := x }
  | .upper x => { i with upper := x }
  | .both i => i

/-- The change in a store. -/
def inStore [BoundStore σ α] (var : Nat) : BoundEdit α → Exec σ Unit
  | .lower x => BoundStore.setLower var x
  | .upper x => BoundStore.setUpper var x
  | .both i => BoundStore.setBounds var i

end BoundEdit

namespace Solver

variable {β α : Type} [BoundStore β α]

/-- Carry out a call. -/
def call : BuildCall α → Exec (Solver β α) Unit
  | .constraint coeffs => addConstraint coeffs
  | .bounds var (.lower x) => setLower var x
  | .bounds var (.upper x) => setUpper var x
  | .bounds var (.both i) => setBounds var i

/-- A change of bounds, whatever bounds it changes. -/
theorem call_bounds_eq (v : Nat) (e : BoundEdit α) : (call (.bounds v e) : Exec (Solver β α) Unit)
    = (ensureBuilding >>= fun _ => onEngine (e.inStore v)) := by
  cases e <;> rfl

/-- Carry out calls and go on after those that are refused. A caller who ignores every error
    does this. -/
def build (calls : List (BuildCall α)) : Exec (Solver β α) Unit :=
  calls.forM fun c => Exec.onError (call c) fun _ => pure ()

end Solver

/-! ### What the calls describe -/

/-- What the calls described: the rows that were accepted, and the bounds as they were set
    last. Unlike a board it has no basis and no values, because those are the same for every
    problem when its search begins. -/
structure Problem (α : Type) where
  maxRows : Nat
  numCols : Nat
  rows : List (Array α)
  bounds : Nat → Interval α

namespace Problem

variable {α : Type}

/-- The problem variables and the slacks. -/
def numVars (p : Problem α) : Nat := p.numCols + p.maxRows

/-- A system without constraints, all variables at least zero. -/
def blank [Scalar α] (maxRows numCols : Nat) : Problem α :=
  ⟨maxRows, numCols, [], fun _ => .nonnegative⟩

/-- What is described after one more call. -/
def call (p : Problem α) : BuildCall α → Problem α
  | .constraint coeffs =>
    if coeffs.size = p.numCols ∧ p.rows.length < p.maxRows then
      { p with rows := p.rows ++ [coeffs] }
    else p
  | .bounds var edit =>
    if var < p.numVars then
      { p with bounds := fun v => if v = var then edit.on (p.bounds var) else p.bounds v }
    else p

/-- What is described by some calls. -/
def ofCalls [Scalar α] (maxRows numCols : Nat) (calls : List (BuildCall α)) : Problem α :=
  calls.foldl call (blank maxRows numCols)

/-- The coefficients as they were added, and zero in rows that were not. -/
def coeff [Zero α] (p : Problem α) (r c : Nat) : α := (p.rows[r]?.bind (·[c]?)).getD 0

/-- The board a search begins with: the basis is the initial one, all values are zero, and
    rows beyond those that were added are zero as well. -/
def board [Scalar α] (p : Problem α) (tolerance : α) : Board α where
  maxRows := p.maxRows
  numRows := p.rows.length
  numCols := p.numCols
  coeff := p.coeff
  basis := .ofDimensions p.maxRows p.numCols
  interval := p.bounds
  value := fun _ => 0
  role := .initial p.numCols
  tolerance := tolerance

theorem dimensions_call (p : Problem α) (c : BuildCall α) :
    (p.call c).maxRows = p.maxRows ∧ (p.call c).numCols = p.numCols := by
  cases c <;> simp only [call] <;> split <;> exact ⟨rfl, rfl⟩

theorem dimensions_ofCalls [Scalar α] (maxRows numCols : Nat) (calls : List (BuildCall α)) :
    (ofCalls maxRows numCols calls).maxRows = maxRows ∧
      (ofCalls maxRows numCols calls).numCols = numCols := by
  have hfold : ∀ (calls : List (BuildCall α)) (p : Problem α),
      (calls.foldl call p).maxRows = p.maxRows ∧ (calls.foldl call p).numCols = p.numCols := by
    intro calls
    induction calls with
    | nil => exact fun p => ⟨rfl, rfl⟩
    | cons c rest ih =>
        intro p
        rcases ih (p.call c) with ⟨hr, hc⟩
        exact ⟨hr.trans (dimensions_call p c).1, hc.trans (dimensions_call p c).2⟩
  exact hfold calls _

/-- There is room for the rows that were accepted. -/
theorem length_rows_call {p : Problem α} (h : p.rows.length ≤ p.maxRows) (c : BuildCall α) :
    (p.call c).rows.length ≤ (p.call c).maxRows := by
  cases c with
  | constraint coeffs =>
      -- A row is counted if it is accepted, which it is only if there is room.
      by_cases hroom : coeffs.size = p.numCols ∧ p.rows.length < p.maxRows
      · simp only [call, if_pos hroom, List.length_append, List.length_singleton]
        omega
      · simp only [call, if_neg hroom]
        exact h
  | bounds var edit =>
      by_cases hvar : var < p.numVars
      · simp only [call, if_pos hvar]
        exact h
      · simp only [call, if_neg hvar]
        exact h

theorem length_rows_ofCalls [Scalar α] (maxRows numCols : Nat) (calls : List (BuildCall α)) :
    (ofCalls maxRows numCols calls).rows.length ≤ (ofCalls maxRows numCols calls).maxRows := by
  have hstep : ∀ (calls : List (BuildCall α)) (p : Problem α), p.rows.length ≤ p.maxRows →
      (calls.foldl call p).rows.length ≤ (calls.foldl call p).maxRows := by
    intro calls
    induction calls with
    | nil => exact fun p h => h
    | cons c rest ih => exact fun p h => ih (p.call c) (length_rows_call h c)
  exact hstep calls _ (Nat.zero_le _)

/-- The bookkeeping to begin with. Nothing is asked of the problem, since rows that do not
    fit were never accepted. -/
theorem valid_board [Scalar α] {p : Problem α} (h : p.rows.length ≤ p.maxRows) (tolerance : α) :
    (p.board tolerance).Valid where
  basis := Basis.matches_ofDimensions p.maxRows p.numCols
  numRows_le := h
  zero := by
    intro r hr _ c _
    have hnone : p.rows[r]? = none := List.getElem?_eq_none hr
    simp only [board, coeff, hnone, Option.bind_none, Option.getD_none]
  spare := fun r _ hrm => Basis.inRow_ofDimensions hrm

end Problem

/-! ### The tableau -/

/-- A tableau without rows is zero. -/
theorem Tableau.shows_empty {α : Type} [Zero α] (maxRows numCols : Nat) :
    (Tableau.empty maxRows numCols : Tableau α).Shows fun _ _ => 0 := by
  intro r hr c hc
  have hlt : r * numCols + c < maxRows * numCols := cellIndex_lt hr hc
  rw [Tableau.coeff?_eq_cell? hc]
  show (Array.replicate (maxRows * numCols) 0)[r * numCols + c]? = some 0
  rw [Array.getElem?_replicate, if_pos hlt]

open Tableau in
/-- A row that is accepted becomes the next one of the tableau. -/
theorem Tableau.Describes.addRow {α : Type} [Zero α] {t : Tableau α} {b : Board α}
    (h : t.Describes b) {coeffs : Array α} (hsize : coeffs.size = b.numCols)
    (hroom : b.numRows < b.maxRows) {f : Nat → Nat → α}
    (hold : ∀ r, r ≠ b.numRows → ∀ c, f r c = b.coeff r c)
    (hnew : ∀ c < b.numCols, coeffs[c]? = some (f b.numRows c)) :
    ∃ u, t.addRow coeffs = .ok (b.numRows, u) ∧
      u.Describes { b with coeff := f, numRows := b.numRows + 1 } := by
  have hrow : b.numRows < t.maxRows := by rw [h.maxRows]; exact hroom
  -- The cells of the new row are written one by one.
  have hstep : ∀ c ∈ List.range coeffs.size, ∀ u : Tableau α, u.SameShape t →
      ∃ v, (coeffs[c]?).bind (u.set? (b.numRows * t.numCols + c)) = some v ∧ v.SameShape t ∧
        (∀ k, k = (b.numRows, c) → v.at? k = some (f k.1 k.2)) ∧
        ∀ k, ¬ k = (b.numRows, c) → v.at? k = u.at? k := by
    intro c hc u hu
    rw [List.mem_range, hsize] at hc
    rcases coeff?_set? (t := u) (r := b.numRows) (c := c) (x := f b.numRows c)
      (by rw [hu.maxRows]; exact hrow) (by rw [hu.numCols, h.numCols]; exact hc) with
      ⟨v, hset, hv, hread, hkept⟩
    refine ⟨v, ?_, hv.trans hu, ?_, fun k hk => hkept k.1 k.2 fun heq => hk ?_⟩
    · rw [hnew c hc, Option.bind_some, ← hu.numCols, hset]
    · rintro k rfl
      exact hread
    · exact Prod.ext heq.1 heq.2
  rcases sweep (m := Option) at? (fun u => u.SameShape t) (fun c k => k = (b.numRows, c))
    (fun k => f k.1 k.2) (fun u c => (coeffs[c]?).bind (u.set? (b.numRows * t.numCols + c)))
    (List.range coeffs.size) t (SameShape.refl t)
    (List.pairwise_lt_range.imp fun hlt k h₁ h₂ => by
      rw [h₁] at h₂
      have := (Prod.mk.inj h₂).2
      omega)
    (fun c hc u hu _ _ => hstep c hc u hu) with ⟨u, hrun, hu, hset, hkept⟩
  refine ⟨{ u with numRows := b.numRows + 1 }, ?_, hu.maxRows.trans h.maxRows, rfl,
    hu.numCols.trans h.numCols, ?_⟩
  · have hall : t.setAll? (t.numRows * t.numCols) coeffs = some u := by
      rw [setAll?, h.numRows]
      exact hrun
    rw [Tableau.addRow, if_neg (fun hne => hne (hsize.trans h.numCols.symm)),
      if_neg (by rw [h.numRows]; omega), hall]
    simp only [h.numRows]
  · intro r hr c hc
    show u.coeff? r c = some (f r c)
    have hr' : r < t.maxRows := by rw [← hu.maxRows]; exact hr
    have hc' : c < t.numCols := by rw [← hu.numCols]; exact hc
    by_cases hrn : r = b.numRows
    · subst hrn
      refine hset (b.numRows, c) ⟨c, ?_, rfl⟩
      rw [List.mem_range, hsize, ← h.numCols]
      exact hc'
    · rw [hold r hrn c]
      refine (hkept (r, c) fun i _ heq => hrn (Prod.mk.inj heq).1).trans ?_
      exact h.coeff r hr' c hc'

/-- Otherwise the row is refused. -/
theorem Tableau.Describes.addRow_refused {α : Type} {t : Tableau α} {b : Board α}
    (h : t.Describes b) {coeffs : Array α}
    (hno : ¬ (coeffs.size = b.numCols ∧ b.numRows < b.maxRows)) :
    ∃ e, t.addRow coeffs = .error e := by
  by_cases hsize : coeffs.size = t.numCols
  · refine ⟨.capacityExceeded t.maxRows, ?_⟩
    have hfull : t.maxRows ≤ t.numRows := by
      rw [h.maxRows, h.numRows]
      rw [h.numCols] at hsize
      omega
    rw [Tableau.addRow, if_neg (fun hne => hne hsize), if_pos hfull]
  · exact ⟨.constraintWidth t.numCols coeffs.size, by rw [Tableau.addRow, if_pos hsize]⟩

/-! ### Engines while a system is built -/

/-- A board with other coefficients, and with as many rows taken. -/
def Board.withRows {α : Type} (b : Board α) (coeff : Nat → Nat → α) (numRows : Nat) : Board α :=
  { b with coeff := coeff, numRows := numRows }

/-- A board with other bounds of one variable. -/
def Board.withInterval {α : Type} (b : Board α) (v : Nat) (i : Interval α) : Board α :=
  { b with interval := fun u => if u = v then i else b.interval u }

/-- What an engine has to do while a system is built. `Ready` is how a workspace shows the
    board the search will begin with. Rows are added to the tableau of the process on every
    engine, and only bounds are a matter of the engine itself. -/
structure Engine.Builds {β α : Type} [BoundStore β α] (Ready : Workspace β α → Board α → Prop) :
    Prop where
  describes : ∀ (w : Workspace β α) (b : Board α), Ready w b → w.tableau.Describes b
  withRows : ∀ (w : Workspace β α) (b : Board α) (t : Tableau α) (coeff : Nat → Nat → α)
    (numRows : Nat), Ready w b → t.Describes (b.withRows coeff numRows) →
    Ready { w with tableau := t } (b.withRows coeff numRows)
  edit : ∀ (w : Workspace β α) (b : Board α) (v : Nat) (e : BoundEdit α), Ready w b →
    v < b.numVars → (Workspace.onEngine (e.inStore v) : Exec (Workspace β α) Unit).Gives w
      fun _ w' => Ready w' (b.withInterval v (e.on (b.interval v)))
  editRefused : ∀ (w : Workspace β α) (b : Board α) (v : Nat) (e : BoundEdit α), Ready w b →
    b.numVars ≤ v → (Workspace.onEngine (e.inStore v) : Exec (Workspace β α) Unit).Stops w
      (.error (.indexOutOfBounds v b.numVars)) fun w' => Ready w' b

namespace Solver

/-- The solver `s` was made as `s₀` and describes a problem. The board it shows is the one
    the search will begin with, so what was described can be read off it. -/
structure Describes {β α : Type} [Scalar α] (Ready : Workspace β α → Board α → Prop)
    (s₀ s : Solver β α) (p : Problem α) : Prop where
  ready : Ready s.workspace (p.board s₀.config.tolerance)
  phase : s.phase = .building
  config : s.config = s₀.config
  history : s.history = s₀.history

theorem ensureBuilding_gives {β α : Type} {s : Solver β α} (h : s.phase = .building) :
    (ensureBuilding : Exec (Solver β α) Unit).Gives s fun _ s' => s' = s := by
  refine Exec.Yields.state.gives ?_
  rw [h]
  exact Exec.Gives.pure rfl

section Calls

variable {β α : Type} [Scalar α] [BoundStore β α] {Ready : Workspace β α → Board α → Prop}
  {s₀ s : Solver β α} {p : Problem α} {w : Workspace β α} {tolerance : α}

/-- The row of a constraint of the right width is the next one of a tableau with room
    for it. -/
theorem describes_addRow {t : Tableau α} (h : t.Describes (p.board tolerance))
    {coeffs : Array α} (hroom : coeffs.size = p.numCols ∧ p.rows.length < p.maxRows) :
    ∃ u, t.addRow coeffs = .ok (p.rows.length, u) ∧
      u.Describes ((p.call (.constraint coeffs)).board tolerance) := by
  have hrows : (p.call (.constraint coeffs)).rows = p.rows ++ [coeffs] := by
    rw [Problem.call, if_pos hroom]
  -- The rows before the new one are those of the old problem, and the rows behind it are zero in
  -- both.
  have hold : ∀ r, r ≠ p.rows.length → ∀ c,
      (p.call (.constraint coeffs)).coeff r c = p.coeff r c := by
    intro r hr c
    have hget : (p.rows ++ [coeffs])[r]? = p.rows[r]? := by
      by_cases hlt : r < p.rows.length
      · exact List.getElem?_append_left hlt
      · have hle : (p.rows ++ [coeffs]).length ≤ r := by
          rw [List.length_append, List.length_singleton]
          omega
        rw [List.getElem?_eq_none hle, List.getElem?_eq_none (Nat.le_of_not_lt hlt)]
    rw [Problem.coeff, Problem.coeff, hrows, hget]
  -- The new row has the coefficients that were given.
  have hnew : ∀ c < p.numCols,
      coeffs[c]? = some ((p.call (.constraint coeffs)).coeff p.rows.length c) := by
    intro c hc
    have hlt : c < coeffs.size := by rw [hroom.1]; exact hc
    rw [Problem.coeff, hrows, List.getElem?_concat_length, Option.bind_some,
      Array.getElem?_eq_getElem hlt, Option.getD_some]
  rcases h.addRow hroom.1 hroom.2 hold hnew with ⟨u, hadd, hu⟩
  refine ⟨u, hadd, hu.maxRows.trans ?_, hu.numRows.trans ?_, hu.numCols.trans ?_, hu.coeff⟩
  · exact ((p.dimensions_call _).1).symm
  · show p.rows.length + 1 = (p.call (.constraint coeffs)).rows.length
    rw [hrows, List.length_append, List.length_singleton]
  · exact ((p.dimensions_call _).2).symm

/-- The row of a constraint of the right width is taken if there is room. -/
theorem addRow_taken (hB : Engine.Builds Ready) (h : Ready w (p.board tolerance))
    {coeffs : Array α} (hroom : coeffs.size = p.numCols ∧ p.rows.length < p.maxRows) :
    ∃ u, w.tableau.addRow coeffs = .ok (p.rows.length, u) ∧
      Ready { w with tableau := u } ((p.call (.constraint coeffs)).board tolerance) := by
  -- The row is counted when it is accepted, so the board it leaves is the one of
  -- the problem with one more constraint.
  have hp : (p.board tolerance).withRows (p.call (.constraint coeffs)).coeff
      (p.rows.length + 1) = (p.call (.constraint coeffs)).board tolerance := by
    simp only [Board.withRows, Problem.board, Problem.call, if_pos hroom, List.length_append,
      List.length_singleton]
  rcases describes_addRow (hB.describes _ _ h) hroom with ⟨u, hadd, hu⟩
  refine ⟨u, hadd, ?_⟩
  rw [← hp] at hu ⊢
  exact hB.withRows _ _ u _ _ h hu

/-- The row of a constraint is taken as the problem says, or refused. -/
theorem addRow_cases (hB : Engine.Builds Ready) (h : Ready w (p.board tolerance))
    (coeffs : Array α) :
    (∃ u, w.tableau.addRow coeffs = .ok (p.rows.length, u) ∧
        Ready { w with tableau := u } ((p.call (.constraint coeffs)).board tolerance)) ∨
      ∃ e, w.tableau.addRow coeffs = .error e ∧ p.call (.constraint coeffs) = p := by
  by_cases hroom : coeffs.size = p.numCols ∧ p.rows.length < p.maxRows
  · exact .inl (addRow_taken hB h hroom)
  · rcases (hB.describes _ _ h).addRow_refused hroom with ⟨e, hadd⟩
    exact .inr ⟨e, hadd, if_neg hroom⟩

/-- The bounds of a variable are changed if there is such a variable. -/
theorem edit_replies (hB : Engine.Builds Ready) (h : Ready w (p.board tolerance)) (v : Nat)
    (e : BoundEdit α) : (Workspace.onEngine (e.inStore v) : Exec (Workspace β α) Unit).Replies w
      ((Error.checkIndex v p.numVars).map fun _ => ())
      fun w' => Ready w' ((p.call (.bounds v e)).board tolerance) := by
  refine Exec.Replies.of_index (fun hv => ?_) fun hv => ?_
  · have hp : (p.board tolerance).withInterval v (e.on (p.bounds v))
        = (p.call (.bounds v e)).board tolerance := by
      rw [Problem.call, if_pos hv]
      rfl
    rw [← hp]
    exact (hB.edit _ _ v e h hv).mono fun _ w' hw => ⟨rfl, hw⟩
  · have hp : p.call (.bounds v e) = p := if_neg (Nat.not_lt_of_le hv)
    rw [hp]
    exact hB.editRefused _ _ v e h hv

/-- A row is accepted if it has the right width and there is room. -/
theorem addConstraint_gives (hB : Engine.Builds Ready) (h : Describes Ready s₀ s p)
    (coeffs : Array α) : (Exec.onError (addConstraint coeffs) fun _ => pure () :
      Exec (Solver β α) Unit).Gives s
      fun _ s' => Describes Ready s₀ s' (p.call (.constraint coeffs)) := by
  rcases addRow_cases hB h.ready coeffs with ⟨u, hadd, hready⟩ | ⟨err, hadd, hp⟩
  · refine Exec.Gives.onError ?_
    refine (ensureBuilding_gives h.phase).bind ?_
    rintro _ s₁ rfl
    refine Exec.Yields.state.gives ?_
    refine (Exec.Yields.check hadd).gives ?_
    refine Exec.Yields.update.gives ?_
    exact Exec.Gives.emit ⟨hready, h.phase, h.config, h.history⟩
  -- A row that is refused changes nothing, and neither does the call that answers it.
  · rw [hp]
    refine Exec.Stops.onError (e := err) (P := fun s' => s' = s) ?_ ?_
    · refine Exec.Stops.after (ensureBuilding_gives h.phase) ?_
      rintro _ s₁ rfl
      refine Exec.Yields.state.stops ?_
      exact (Exec.Stops.check (P := fun s' => s' = s₁) hadd rfl).bind
    · rintro _ rfl
      exact Exec.Gives.pure h

/-- The bounds of a variable are changed if there is such a variable. -/
theorem edit_gives (hB : Engine.Builds Ready) (h : Describes Ready s₀ s p) (v : Nat)
    (e : BoundEdit α) : (Exec.onError (call (.bounds v e)) fun _ => pure () :
      Exec (Solver β α) Unit).Gives s
      fun _ s' => Describes Ready s₀ s' (p.call (.bounds v e)) := by
  have hreplies : (onEngine (e.inStore v) : Exec (Solver β α) Unit).Replies s
      ((Error.checkIndex v p.numVars).map fun _ => ())
      fun s' => Describes Ready s₀ s' (p.call (.bounds v e)) := by
    unfold onEngine onWorkspace
    exact Exec.Replies.focus ((edit_replies hB h.ready v e).mono fun w hw =>
      ⟨hw, h.phase, h.config, h.history⟩)
  rw [call_bounds_eq]
  -- Either there is such a variable, or the refusal is answered by doing nothing.
  cases hindex : Error.checkIndex v p.numVars with
  | ok _ =>
      rw [hindex] at hreplies
      refine Exec.Gives.onError ((ensureBuilding_gives h.phase).bind ?_)
      rintro _ s₁ rfl
      exact Exec.Gives.mono hreplies fun _ _ hs => hs.2
  | error err =>
      rw [hindex] at hreplies
      refine Exec.Stops.onError (e := err) (Exec.Stops.after (ensureBuilding_gives h.phase) ?_)
        fun s' hs' => Exec.Gives.pure hs'
      rintro _ s₁ rfl
      exact hreplies

/-- The solver describes what all calls together described. This includes calls that were
    refused, as they describe nothing. -/
theorem build_gives (hB : Engine.Builds Ready) (calls : List (BuildCall α)) :
    ∀ {s : Solver β α} {p : Problem α}, Describes Ready s₀ s p →
      (build calls : Exec (Solver β α) Unit).Gives s
        fun _ s' => Describes Ready s₀ s' (calls.foldl Problem.call p) := by
  induction calls with
  | nil => exact fun h => Exec.Gives.pure h
  | cons c rest ih =>
      intro s p h
      have hcall : (Exec.onError (call c) fun _ => pure () : Exec (Solver β α) Unit).Gives s
          fun _ s' => Describes Ready s₀ s' (p.call c) := by
        cases c with
        | constraint coeffs => exact addConstraint_gives hB h coeffs
        | bounds v e => exact edit_gives hB h v e
      exact hcall.bind fun _ s' h' => ih h'

end Calls

theorem checkDimensions_eq_ok {maxRows numCols : Nat}
    (h : checkDimensions maxRows numCols = .ok ()) :
    maxRows ≠ 0 ∧ numCols ≠ 0 ∧ maxRows + numCols < UInt32.size := by
  unfold checkDimensions at h
  by_cases hr : maxRows = 0
  · rw [if_pos hr] at h
    cases h
  · by_cases hc : numCols = 0
    · rw [if_neg hr, if_pos hc] at h
      cases h
    · by_cases hsize : UInt32.size ≤ maxRows + numCols
      · rw [if_neg hr, if_neg hc, if_pos hsize] at h
        cases h
      · exact ⟨hr, hc, Nat.lt_of_not_le hsize⟩

theorem validate_eq_ok {α : Type} [Scalar α] {config : Config α} (h : config.validate = .ok ()) :
    Scalar.isFinite config.tolerance = true ∧ Scalar.lt config.tolerance 0 = false ∧
      config.maxWorkgroupSize ≠ some 0 := by
  unfold Config.validate at h
  by_cases htol : (!Scalar.isFinite config.tolerance || Scalar.lt config.tolerance 0) = true
  · rw [if_pos htol] at h
    cases h
  · by_cases hcap : config.maxWorkgroupSize = some 0
    · rw [if_neg htol, if_pos hcap] at h
      cases h
    · simp only [Bool.or_eq_true, Bool.not_eq_true', not_or, Bool.not_eq_false, Bool.not_eq_true]
        at htol
      exact ⟨htol.1, htol.2, hcap⟩

/-- A solver is made if the dimensions and the configuration make sense. -/
theorem checkInput_eq_ok {α : Type} [Scalar α] {maxRows numCols : Nat} {config : Config α}
    (h : checkInput maxRows numCols config = .ok ()) :
    checkDimensions maxRows numCols = .ok () ∧ config.validate = .ok () := by
  unfold checkInput at h
  cases hdim : checkDimensions maxRows numCols with
  | error e =>
      rw [hdim] at h
      cases h
  | ok _ =>
      rw [hdim] at h
      exact ⟨rfl, h⟩

/-- The solver a caller is given has seen no constraint, and what it was made from has
    passed the checks. -/
theorem fresh_of_sequential {σ α : Type} [Scalar α] {maxRows numCols : Nat} {config : Config α}
    {t u : Traced σ} {s : Solver (Sequential α) α}
    (h : sequential maxRows numCols config t = .ok s u) :
    checkInput maxRows numCols config = .ok () ∧
      s = fresh maxRows numCols config (.initial maxRows numCols config.tolerance) := by
  cases hinput : checkInput maxRows numCols config with
  | error e =>
      rw [sequential, hinput] at h
      cases h
  | ok _ =>
      rw [sequential, hinput] at h
      cases h
      exact ⟨rfl, rfl⟩

end Solver

/-! ### The sequential engine -/

namespace Bounds.Table

variable {α : Type} {t : Table α} {b : Board α} {v : Nat}

/-- A change of the bounds of one variable, as a change of one entry. -/
theorem Shows.withInterval_gives (h : t.Shows b) (hv : v < b.numVars)
    {f : Variable α → Variable α} {i : Interval α}
    (hf : f (b.entry v) = { b.entry v with interval := i }) :
    (change v f).Gives t fun _ t' => t'.Shows (b.withInterval v i) := by
  refine h.change_gives hv rfl rfl ?_ fun u hu => ?_
  · rw [hf]
    simp only [Board.entry, Board.withInterval, if_true]
  · simp only [Board.entry, Board.withInterval, if_neg hu]

theorem change_stops {f : Variable α → Variable α} (h : t.entries.size ≤ v) :
    (change v f).Stops t (.error (.indexOutOfBounds v t.entries.size)) fun t' => t' = t := by
  refine Exec.Yields.state.stops ?_
  refine (Exec.Stops.check (P := fun t'' => t'' = t) ?_ rfl).bind
  rw [Error.checkIndex, if_neg (Nat.not_lt_of_le h)]

variable [Scalar α]

theorem Shows.edit_gives (h : t.Shows b) (hv : v < b.numVars) (e : BoundEdit α) :
    (e.inStore v : Exec (Table α) Unit).Gives t
      fun _ t' => t'.Shows (b.withInterval v (e.on (b.interval v))) := by
  cases e with
  | lower x => exact h.withInterval_gives hv rfl
  | upper x => exact h.withInterval_gives hv rfl
  | both i =>
      -- The two bounds are written one after the other.
      refine (h.withInterval_gives (i := { b.interval v with lower := i.lower }) hv rfl).bind
        fun _ t₁ h₁ => ?_
      refine h₁.change_gives hv rfl rfl ?_ fun u hu => ?_
      · simp only [Board.entry, Board.withInterval, if_true, BoundEdit.on]
      · simp only [Board.entry, Board.withInterval, if_neg hu]

theorem edit_stops (h : t.entries.size ≤ v) (e : BoundEdit α) :
    (e.inStore v : Exec (Table α) Unit).Stops t (.error (.indexOutOfBounds v t.entries.size))
      fun t' => t' = t := by
  cases e with
  | lower x => exact change_stops h
  | upper x => exact change_stops h
  | both i => exact (change_stops h).bind

end Bounds.Table

namespace Sequential

variable {α : Type} [Scalar α]

theorem inStore_eq (v : Nat) (e : BoundEdit α) :
    (e.inStore v : Exec (Sequential α) Unit)
      = Exec.focus (·.bounds) (fun t s => { s with bounds := t }) (e.inStore v) := by
  cases e <;> rfl

/-- The sequential engine does what an engine has to do. -/
theorem builds : Engine.Builds (β := Sequential α) (α := α) Shows where
  describes _ _ h := h.tableau
  withRows _ _ _ _ _ h ht := ⟨ht, h.basis, ⟨h.bounds.size, h.bounds.entry, h.bounds.tolerance⟩,
    h.basic, h.nonbasic⟩
  -- An edit goes to the table of the engine, and leaves the sets of variables as they are.
  edit := by
    intro w b v e h hv
    rw [inStore_eq]
    refine Exec.Gives.focus (Exec.Gives.focus ((h.bounds.edit_gives hv e).mono fun _ t ht => ?_))
    exact ⟨⟨h.tableau.maxRows, h.tableau.numRows, h.tableau.numCols, h.tableau.coeff⟩, h.basis, ht,
      h.basic, h.nonbasic⟩
  editRefused := by
    intro w b v e h hv
    rw [← h.bounds.size] at hv ⊢
    rw [inStore_eq]
    refine Exec.Stops.focus (Exec.Stops.focus ((Bounds.Table.edit_stops hv e).mono ?_))
    rintro _ rfl
    exact h

/-- The solver a caller is given describes a system without constraints. -/
theorem describes_fresh {maxRows numCols : Nat} {config : Config α}
    (hsize : maxRows + numCols < UInt32.size) :
    Solver.Describes Shows
      (Solver.fresh maxRows numCols config (initial maxRows numCols config.tolerance))
      (Solver.fresh maxRows numCols config (initial maxRows numCols config.tolerance))
      (.blank maxRows numCols) where
  phase := rfl
  config := rfl
  history := rfl
  ready := by
    refine ⟨⟨rfl, rfl, rfl, ?_⟩, ?_, ⟨?_, ?_, rfl⟩, fun v => ?_, fun v => ?_⟩
    · exact Tableau.shows_empty maxRows numCols
    · exact Basis.initial_eq_ofDimensions (by omega) (by omega)
    · show ((Array.range (maxRows + numCols)).map _).size = numCols + maxRows
      rw [Array.size_map, Array.size_range, Nat.add_comm]
    · intro v hv
      have hlt : v < maxRows + numCols := by
        rw [Nat.add_comm]
        exact hv
      show ((Array.range (maxRows + numCols)).map _)[v]? = _
      rw [Array.getElem?_map, Array.getElem?_range, if_pos hlt]
      rfl
    -- The slacks are numbered behind the problem variables, so both sets are intervals.
    · show v ∈ VarSet.interval numCols maxRows ↔ _
      rw [VarSet.mem_interval, decide_eq_true_eq]
      show _ ↔ v < numCols + maxRows ∧ Role.initial numCols v = .basic
      rw [Role.initial]
      by_cases hv : v < numCols
      · simp only [if_pos hv, reduceCtorEq, and_false, iff_false]
        omega
      · simp only [if_neg hv, and_true]
        omega
    · show v ∈ VarSet.interval 0 numCols ↔ _
      rw [VarSet.mem_interval, decide_eq_true_eq]
      show _ ↔ v < numCols + maxRows ∧ Role.initial numCols v = .nonbasic
      rw [Role.initial]
      by_cases hv : v < numCols
      · simp only [if_pos hv, and_true]
        omega
      · simp only [if_neg hv, reduceCtorEq, and_false, iff_false]
        omega

/-! ### Searches on the sequential engine -/

section Search

variable {τ : Type} {maxRows numCols : Nat} {config : Config α} {calls : List (BuildCall α)}
  {t u : Traced τ} {s : Solver (Sequential α) α} {j : Journal}
  {t₁ : Traced (Solver (Sequential α) α)}

/-- A solver that was made and built stands at the board of the problem. -/
theorem shows_of_build (hmake : Solver.sequential maxRows numCols config t = .ok s u)
    (hbuild : Solver.build calls ⟨s, j⟩ = .ok () t₁) :
    Shows t₁.state.workspace ((Problem.ofCalls maxRows numCols calls).board config.tolerance) ∧
      t₁.state.phase = .building ∧ t₁.state.config = config ∧ t₁.state.history = #[] := by
  rcases Solver.fresh_of_sequential hmake with ⟨hinput, rfl⟩
  have hsize := (Solver.checkDimensions_eq_ok (Solver.checkInput_eq_ok hinput).1).2.2
  have hdesc := (Solver.build_gives builds calls (describes_fresh hsize)).result hbuild
  exact ⟨hdesc.ready, hdesc.phase, hdesc.config, hdesc.history⟩

variable [StrictScalar α]

/-- How a search can end on a solver that was made and built. -/
theorem ending_of_build (hmake : Solver.sequential maxRows numCols config t = .ok s u)
    (hbuild : Solver.build calls ⟨s, j⟩ = .ok () t₁) (fuel : Nat) :
    Solver.Ending leftSum (fun _ => none) Shows t₁.state
      ((Problem.ofCalls maxRows numCols calls).board config.tolerance) fuel
      (Solver.solve fuel t₁) := by
  rcases shows_of_build hmake hbuild with ⟨hshows, hphase, -⟩
  exact Solver.solve_ending follows (Problem.valid_board (Problem.length_rows_ofCalls _ _ _) _)
    hshows hphase fuel t₁.journal

/-- So the solver stands at a board of the search after its end, however it ended: with a
    verdict, at the limit, or out of fuel. An engine in the process is never kept from
    adding up its rows. -/
theorem at_board_of_solve (hmake : Solver.sequential maxRows numCols config t = .ok s u)
    (hbuild : Solver.build calls ⟨s, j⟩ = .ok () t₁) {fuel : Nat}
    {v : Traced (Solver (Sequential α) α)}
    (hsolve : (∃ sat, Solver.solve fuel t₁ = .ok sat v) ∨ ∃ e, Solver.solve fuel t₁ = .error e v) :
    ∃ l b, Board.Run leftSum ((Problem.ofCalls maxRows numCols calls).board config.tolerance) l b ∧
      Solver.At Shows t₁.state v.state b l := by
  have hend := ending_of_build hmake hbuild fuel
  rcases hsolve with ⟨sat, heq⟩ | ⟨e, heq⟩
  · rw [heq] at hend
    cases hend with
    | verdict hrun hat _ => exact ⟨_, _, hrun, hat⟩
  · rw [heq] at hend
    cases hend with
    | limit hrun hat _ _ _ => exact ⟨_, _, hrun, hat⟩
    | fuel hrun hat _ => exact ⟨_, _, hrun, hat⟩
    | stuck hstuck _ => exact absurd hstuck (Option.some_ne_none _).symm

/-- Between two iterations such a solver stands at a board of the search. -/
theorem at_board_of_build (hmake : Solver.sequential maxRows numCols config t = .ok s u)
    (hbuild : Solver.build calls ⟨s, j⟩ = .ok () t₁) {n : Nat}
    {v : Traced (Solver (Sequential α) α)} (hreach : Solver.Reaches t₁ n v) :
    ∃ l b, Board.Run leftSum ((Problem.ofCalls maxRows numCols calls).board config.tolerance) l b ∧
      l.length = n ∧ Solver.At Shows t₁.state v.state b l := by
  rcases shows_of_build hmake hbuild with ⟨hshows, -, -⟩
  exact hreach.at_board follows (Problem.valid_board (Problem.length_rows_ofCalls _ _ _) _) hshows

end Search

end Sequential

end BoundedSimplex
