import BoundedSimplex.Proofs.Padding
import BoundedSimplex.Proofs.Bookkeeping
import BoundedSimplex.Proofs.Limits

/-!
# Unused Capacity

Room for constraints that are never added makes no difference.

A solver is made for a number of constraints, and it counts the slacks of all of
them from the beginning. Two solvers that are made for different numbers but get
the same constraints have tables, buffers and scans of different lengths. As long
as the constraints fit the smaller one, and no bounds are set that it does not
have, both answer alike, exchange the same variables and report the same of
everything that the smaller one has.

While the system is built the two problems are `Problem.Padded`, and during the
search the two boards are `Board.Padded`. Both engines are asked about variables
by their numbers and about rows and columns by theirs, so this is all there is to
it. The rows that are still free are counted down along the calls: as long as there
is one, both solvers take the next constraint, and otherwise neither is asked to.

Apart from that, the slack of a row that is not taken owns its row at zero for as
long as there is a solver, on either engine and whatever is asked of it.

## Main definitions

* `Operation.Within`: Calls that name variables below a number only.
* `Solver.SameBelow`: The same history, and the same reports as far as they go.
* `Solver.SameCourse`: Sessions that end alike.
* `Solver.Idle`: What the slack of a row that is not taken does.

## Theorems

* `Solver.session_abreast`: Sessions on two solvers of one engine.
* `Solver.idle_of_standing`: The slacks of rows that are not taken.
* `sameCourse_of_capacity`: Both engines.
-/

namespace BoundedSimplex

/-! ### Calls and reports -/

namespace Operation

variable {α : Type}

/-- A call that describes a part of the system or searches, and names only
    variables below a number. -/
inductive Within (numVars : Nat) : Operation α → Prop where
  | constraint {coeffs : Array α} : Within numVars (.build (.constraint coeffs))
  | bounds {v : Nat} {e : BoundEdit α} : v < numVars → Within numVars (.build (.bounds v e))
  | solve {fuel : Nat} : Within numVars (.solve fuel)

/-- A call that asks for a row. -/
def isConstraint : Operation α → Bool
  | .build (.constraint _) => true
  | _ => false

/-- Calls that fit a solver of some size: they name the variables that it has, and there is
    a row for each constraint. This is the smaller one of two solvers, so the larger one has
    room for them as well. -/
structure Fit (maxRows numCols : Nat) (ops : List (Operation α)) : Prop where
  within : ∀ o ∈ ops, o.Within (numCols + maxRows)
  rows : ops.countP isConstraint ≤ maxRows

end Operation

namespace Solver

section Statement

variable {β α : Type} [Engine β α]

/-- Two solvers made the same exchanges and report the same, up to a number of variables and
    of rows. Questions are compared by what they come to, errors included. -/
structure SameBelow (numVars rows : Nat) (v v' : Traced (Solver β α)) : Prop where
  phase : v'.state.phase = v.state.phase
  history : v'.state.history = v.state.history
  numRows : v'.state.numRows = v.state.numRows
  solution : Exec.outcome (solution v') = Exec.outcome (solution v)
  assignment : ∀ x < numVars, Exec.outcome (assignment x v') = Exec.outcome (assignment x v)
  role : ∀ x < numVars, Exec.outcome (role x v') = Exec.outcome (role x v)
  entry : ∀ r < rows, ∀ c, Exec.outcome (entry r c v') = Exec.outcome (entry r c v)
  rowVar : ∀ r < rows, v'.state.basis.rowVar? r = v.state.basis.rowVar? r
  colVar : ∀ c < v.state.numCols, v'.state.basis.colVar? c = v.state.basis.colVar? c

variable [Scalar α]

/-- What the slack of a row does that is not taken: it owns the row, lies at zero, and was
    never exchanged. The variables beyond the smaller solver are such slacks, and so they
    have no part in the course of the larger one. -/
structure Idle (u : Traced (Solver β α)) (r : Nat) : Prop where
  row : u.state.basis.rowVar? r = some (u.state.numCols + r)
  role : HasRole u (u.state.numCols + r) .basic
  value : HasValue u (u.state.numCols + r) 0
  history : ∀ step ∈ u.state.history,
    step.leaving ≠ u.state.numCols + r ∧ step.entering ≠ u.state.numCols + r

/-- All rows that are not taken. -/
def SparesIdle (u : Traced (Solver β α)) : Prop :=
  ∀ r, u.state.numRows ≤ r → r < u.state.maxRows → Idle u r

/-- Two sessions with the same answers, or two that are cut off for the same reason. Only
    what ends a session without an answer cuts it off, and an obstacle depends on the
    columns, of which both have as many. -/
inductive SameCourse (numVars rows : Nat) (ops : List (Operation α))
    (t t' : Traced (Solver β α)) : Prop where
  | ended {answers : List (Except Error (Answer α))} {v v' : Traced (Solver β α)} :
      session ops t = .ok answers v → session ops t' = .ok answers v' →
      SameBelow numVars rows v v' → SameCourse numVars rows ops t t'
  | cut {e : Stop} {v v' : Traced (Solver β α)} : (e = .outOfFuel ∨ ∃ o : Obstacle, e = o.stop) →
      session ops t = .error e v → session ops t' = .error e v' →
      SameCourse numVars rows ops t t'

end Statement

/-! ### Two solvers of one engine -/

section Abreast

open Board Exec

variable {β α : Type} [Scalar α] [Engine β α]

/-- Two boards that can be searched, the first one of some size and the second one with room
    for more rows. The lowest indices are the same on both, because additional slacks come
    after all other variables. -/
structure PaddedBoards (maxRows numCols : Nat) (b b' : Board α) : Prop where
  maxRows : b.maxRows = maxRows
  numCols : b.numCols = numCols
  left : b.Valid
  right : b'.Valid
  padded : b.Padded b'

/-- Two solvers that describe a problem, the second one with room for more constraints. The
    first one has room for some more of them, and this number goes down with each constraint
    that the calls still add. -/
structure Drafted (R : Engine.Reading β α) (maxRows numCols : Nat) (c : Config α) (room : Nat)
    (p p' : Problem α) (f : Face α) (s s' : Solver β α) : Prop where
  size : p.HasSize maxRows numCols
  padded : p.Padded p'
  room : p.rows.length + room ≤ p.maxRows
  phase : f.phase = .building
  config : f.config = c
  history : f.history = #[]
  observed : f.observed = false
  twins : Twins (R.Ready · (p.board c.tolerance)) (R.Ready · (p'.board c.tolerance)) f s s'

/-- Two solvers between two calls. Both describe a problem, or both are finished, and every
    call leads from one such pair to another one unless it is missed. -/
inductive Abreast (R : Engine.Reading β α) (maxRows numCols : Nat) (c : Config α) (room : Nat)
    (s s' : Solver β α) : Prop where
  | building {p p' : Problem α} {f : Face α} : Drafted R maxRows numCols c room p p' f s s' →
      Abreast R maxRows numCols c room s s'
  | finished {b b' : Board α} {f : Face α} : PaddedBoards maxRows numCols b b' →
      f.phase ≠ .building → Twins (R.Shows · b) (R.Shows · b') f s s' →
      Abreast R maxRows numCols c room s s'

/-- A call is refused by both, or cut off on both. -/
inductive Missed (R : Engine.Reading β α) (maxRows numCols : Nat) (c : Config α) (room : Nat) :
    Stop → Solver β α → Solver β α → Prop where
  | refused {e : Error} {s s' : Solver β α} : Abreast R maxRows numCols c room s s' →
      Missed R maxRows numCols c room (.error e) s s'
  | fuel {s s' : Solver β α} : Missed R maxRows numCols c room .outOfFuel s s'
  | stuck {o : Obstacle} {e : Stop} {s s' : Solver β α} : e = o.stop →
      Missed R maxRows numCols c room e s s'

variable {R : Engine.Reading β α} {maxRows numCols room : Nat} {c : Config α}
  {t t' : Traced (Solver β α)} {p p' : Problem α} {f : Face α}

/-- Their searches begin on such boards. -/
theorem Drafted.boards {s s' : Solver β α} (h : Drafted R maxRows numCols c room p p' f s s') :
    PaddedBoards maxRows numCols (p.board c.tolerance) (p'.board c.tolerance) where
  maxRows := h.size.maxRows
  numCols := h.size.numCols
  left := Problem.valid_board h.size.rows _
  right := by
    refine Problem.valid_board ?_ _
    rw [h.padded.rows]
    exact Nat.le_trans h.size.rows h.padded.maxRows_le
  padded := h.padded.board _

/-- Both take the row of a constraint, or both refuse it for its width. -/
theorem Drafted.constraint
    (h : Drafted R maxRows numCols c (room + 1) p p' f t.state t'.state) (coeffs : Array α) :
    Alike (fun _ => Abreast R maxRows numCols c room) (Missed R maxRows numCols c room)
      (call (.constraint coeffs) t) (call (.constraint coeffs) t') := by
  refine (h.twins.ensureBuilding fun s s' hne _ => absurd h.phase hne).bind ?_
  rintro _ u u' - ⟨-, hu⟩
  refine Alike.state ?_
  have hroom := h.room
  have hlt : p.rows.length < p.maxRows := by omega
  have hlt' : p'.rows.length < p'.maxRows := by
    rw [h.padded.rows]
    exact Nat.lt_of_lt_of_le hlt h.padded.maxRows_le
  -- The width decides on both alike, since the larger solver has the same columns. Room for the
  -- row is in the hypothesis: `room` counts what may still come.
  by_cases hsize : coeffs.size = p.numCols
  · rcases addRow_taken R.builds hu.left ⟨hsize, hlt⟩ with ⟨x, hadd, hx⟩
    rcases addRow_taken R.builds hu.right ⟨hsize.trans h.padded.numCols.symm, hlt'⟩ with
      ⟨x', hadd', hx'⟩
    refine Alike.checked hadd hadd' ?_
    refine (Alike.update (R := fun _ => Abreast R maxRows numCols c room) ?_).bind
      fun _ w w' _ hw => Alike.emit hw
    refine .building { h with
      size := h.size.call (.constraint coeffs)
      padded := h.padded.constraint hlt coeffs
      room := ?_
      twins := ⟨hx, hx', hu.face_left, hu.face_right⟩ }
    simp only [Problem.call, if_pos (And.intro hsize hlt), List.length_append,
      List.length_singleton]
    omega
  · have hwidth : ∀ {u : Traced (Solver β α)} {b : Board α}, b.numCols = p.numCols →
        R.Ready u.state.workspace b → u.state.workspace.tableau.addRow coeffs
          = .error (.constraintWidth p.numCols coeffs.size) := by
      intro u b hcols hready
      have htableau := (R.builds.describes _ _ hready).numCols
      rw [Tableau.addRow, htableau, hcols, if_pos hsize]
    rw [hwidth rfl hu.left, hwidth h.padded.numCols hu.right]
    -- A refused row uses up no room, so what is left is more than is needed.
    have hroom' : p.rows.length + room ≤ p.maxRows := by omega
    refine (Alike.check (R := fun _ _ _ => False) (fun _ hok => by cases hok) fun e _ => ?_).bind
      fun _ _ _ _ hfalse => hfalse.elim
    exact .refused (.building { h with room := hroom', twins := hu })

/-- Both change the bounds of a variable that is on the smaller board. -/
theorem Drafted.bounds (h : Drafted R maxRows numCols c room p p' f t.state t'.state) {v : Nat}
    (hv : v < p.numVars) (e : BoundEdit α) :
    Alike (fun _ => Abreast R maxRows numCols c room) (Missed R maxRows numCols c room)
      (call (.bounds v e) t) (call (.bounds v e) t') := by
  rw [call_bounds_eq]
  refine (h.twins.ensureBuilding fun s s' hne _ => absurd h.phase hne).bind ?_
  rintro _ u u' - ⟨-, hu⟩
  -- An index below the smaller count of variables is below the larger one too, and both accept
  -- it.
  have hreply : ∀ {q : Problem α}, v < q.numVars →
      (Error.checkIndex v q.numVars).map (fun _ => ()) = .ok () := by
    intro q hlt
    rw [Error.checkIndex_eq_ok_iff.mpr hlt]
    rfl
  have hreply' := hreply (Nat.lt_of_lt_of_le hv h.padded.numVars_le)
  refine (hu.onWorkspace_replies (x := .ok ())
    (fun w hw => hreply hv ▸ edit_replies R.builds hw v e)
    (fun w hw => hreply' ▸ edit_replies R.builds hw v e)
    fun _ _ _ hx => by cases hx).mono (fun _ s s' hs => ?_) fun _ _ _ he => he
  refine .building { h with
    size := h.size.call (.bounds v e)
    padded := h.padded.edit hv e
    room := ?_
    twins := hs.2 }
  simp only [Problem.call, if_pos hv]
  exact h.room

variable [StrictScalar α]

/-- The boards of the two searches belong together. -/
theorem coupling_padded (R : Engine.Reading β α) (t : Traced (Solver β α))
    (fuel maxRows numCols : Nat) :
    Coupling R R t fuel numCols false fun _ => PaddedBoards maxRows numCols where
  obstacle := rfl
  numCols _ _ _ h := h.numCols
  lockstep _ _ _ h := h.padded.lockstep h.left h.right
  basis _ _ _ _ := nofun
  step := by
    intro l b b' leaving entering v h hex _ _ _
    have hex' := (h.padded.lockstep h.left h.right).exchanges hex
    exact ⟨h.maxRows, h.numCols, h.left.after hex, h.right.after hex',
      h.padded.after h.left h.right hex⟩

/-- The search, on both. -/
theorem Drafted.solve (h : Drafted R maxRows numCols c room p p' f t.state t'.state) (fuel : Nat) :
    Alike (fun _ => Abreast R maxRows numCols c room) (Missed R maxRows numCols c room)
      (solve fuel t) (solve fuel t') := by
  have hcoupling := coupling_padded R t fuel maxRows numCols
  rw [← h.observed] at hcoupling
  refine (solve_coupled hcoupling h.boards h.twins h.phase h.history).mono ?_ ?_
  · rintro sat s s' ⟨g, hg, ⟨hboards, htwins, -, -, -⟩⟩
    refine .finished hboards ?_ htwins
    rw [hg]
    cases sat <;> decide
  · intro e s s' he
    cases he with
    | limit _ hg hcoupled =>
        rcases hcoupled with ⟨hboards, htwins, -, -, -⟩
        refine .refused (.finished hboards ?_ htwins)
        rw [hg]
        decide
    | fuel => exact .fuel
    | stuck _ he => exact .stuck he

/-- One call on both. A row is taken by a constraint at most. -/
theorem perform_abreast {o : Operation α} (ho : o.Within (numCols + maxRows))
    (h : Abreast R maxRows numCols c (room + if o.isConstraint then 1 else 0) t.state t'.state) :
    Alike (fun _ => Abreast R maxRows numCols c room) (Missed R maxRows numCols c room)
      (perform o t) (perform o t') := by
  cases h with
  | @building p p' f h =>
      -- In the building phase each kind of call has a lemma of its own. Once finished both
      -- solvers refuse everything but reading.
      cases ho with
      | constraint => exact (h.constraint _).bind fun _ _ _ _ hs => Alike.pure hs
      | bounds hv =>
          have hvars : p.numVars = numCols + maxRows := by
            rw [Problem.numVars, h.size.numCols, h.size.maxRows]
          exact (h.bounds (by rw [hvars]; exact hv) _).bind fun _ _ _ _ hs => Alike.pure hs
      | solve => exact (h.solve _).bind fun _ _ _ _ hs => Alike.pure hs
  | @finished b b' f hboards hphase htwins =>
      have hfinished : ∀ {s s'}, Twins (R.Shows · b) (R.Shows · b') f s s' →
          Abreast R maxRows numCols c room s s' := fun hs => .finished hboards hphase hs
      have hcall : ∀ k : BuildCall α, Alike (fun _ => Abreast R maxRows numCols c room)
          (Missed R maxRows numCols c room) (perform (.build k) t) (perform (.build k) t') :=
        fun k => (htwins.call_finished hphase k fun _ _ hs => .refused (hfinished hs)).bind
          fun _ _ _ _ hfalse => hfalse.elim
      cases ho with
      | constraint => exact hcall _
      | bounds => exact hcall _
      | solve =>
          exact (htwins.solve_finished hphase _ fun _ _ hs => .refused (hfinished hs)).bind
            fun _ _ _ _ hs => Alike.pure (hfinished hs)

/-- Calls on both, as many constraints among them as the smaller one has room for. Both
    answer alike to the end, or stop at the same place: out of steps, or at an obstacle of
    the engine that both have. -/
theorem session_abreast (ops : List (Operation α)) :
    ∀ {t t' : Traced (Solver β α)}, (∀ o ∈ ops, o.Within (numCols + maxRows)) →
      Abreast R maxRows numCols c (ops.countP Operation.isConstraint) t.state t'.state →
      Alike (fun _ => Abreast R maxRows numCols c 0)
        (fun e _ _ => e = .outOfFuel ∨ ∃ o : Obstacle, e = o.stop) (session ops t)
        (session ops t') := by
  -- Induction on the calls. The room in the invariant is the number of constraints still to come,
  -- so it falls by one exactly where a row may be taken.
  induction ops with
  | nil => exact fun _ h => Alike.pure h
  | cons o rest ih =>
      intro t t' hops h
      unfold session
      simp only [List.mapM_cons]
      rw [List.countP_cons] at h
      have hanswer : Alike
          (fun _ => Abreast R maxRows numCols c (rest.countP Operation.isConstraint))
          (fun e _ _ => e = .outOfFuel ∨ ∃ o : Obstacle, e = o.stop) (answer o t)
          (answer o t') := by
        unfold answer
        refine Alike.onError ((perform_abreast (hops o List.mem_cons_self) h).bind
          fun _ _ _ _ hs => Alike.pure hs) (fun e u u' he => ?_) fun e s s' hne he => ?_
        · cases he with
          | refused hs => exact Alike.pure hs
          | @stuck o _ _ _ he => exact absurd he.symm (o.stop_ne_error _)
        · cases he with
          | refused => exact absurd rfl (hne _)
          | fuel => exact .inl rfl
          | @stuck o _ _ _ he => exact .inr ⟨o, he⟩
      refine hanswer.bind fun a u u' _ hs => ?_
      exact (ih (fun o' ho' => hops o' (List.mem_cons_of_mem _ ho')) hs).bind
        fun as w w' _ hw => Alike.pure hw

omit [StrictScalar α] in
/-- Two solvers that have seen no constraint. -/
theorem abreast_fresh {more : Nat} {e e' : β} (hle : maxRows ≤ more) (hroom : room ≤ maxRows)
    (h : Describes R.Ready (fresh maxRows numCols c e) (fresh maxRows numCols c e)
      (.blank maxRows numCols))
    (h' : Describes R.Ready (fresh more numCols c e') (fresh more numCols c e')
      (.blank more numCols)) :
    Abreast R maxRows numCols c room (fresh maxRows numCols c e) (fresh more numCols c e') := by
  refine .building (f := ⟨c, .building, #[], false, #[]⟩) ⟨Problem.hasSize_blank _ _,
    Problem.padded_blank hle _, ?_, rfl, rfl, rfl, rfl, ⟨h.ready, h'.ready, rfl, rfl⟩⟩
  show 0 + room ≤ maxRows
  omega

/-! ### What both report -/

omit [StrictScalar α] in
/-- Either way both can be asked. -/
theorem Abreast.reports {s s' : Solver β α} (h : Abreast R maxRows numCols c room s s') :
    ∃ (Show : Workspace β α → Board α → Prop) (b b' : Board α) (f : Face α),
      Engine.Reports Show ∧ PaddedBoards maxRows numCols b b' ∧
      Twins (Show · b) (Show · b') f s s' := by
  cases h with
  | building h => exact ⟨R.Ready, _, _, _, R.reportsReady, h.boards, h.twins⟩
  | finished hboards _ htwins => exact ⟨R.Shows, _, _, _, R.reportsShows, hboards, htwins⟩

omit [StrictScalar α] in
theorem Abreast.sameBelow {v v' : Traced (Solver β α)}
    (h : Abreast R maxRows numCols c room v.state v'.state) :
    SameBelow (numCols + maxRows) maxRows v v' := by
  rcases h.reports with ⟨Show, b, b', f, hR, hb, htwins⟩
  have hpad := hb.padded
  have hsized := hR.sized _ _ htwins.left
  have hsized' := hR.sized _ _ htwins.right
  have hbasis : v.state.basis = b.basis := hR.basis _ _ htwins.left
  have hbasis' : v'.state.basis = b'.basis := hR.basis _ _ htwins.right
  have hvars : numCols + maxRows = b.numVars := by
    rw [Board.numVars, hb.numCols, hb.maxRows]
  rw [hvars, ← hb.maxRows]
  -- Every observation is read off the two boards, and the boards agree on the rows and columns
  -- that both have.
  refine {
    phase := htwins.phases.2.trans htwins.phases.1.symm
    history := htwins.histories.2.trans htwins.histories.1.symm
    numRows := hsized'.numRows.trans (hpad.numRows.trans hsized.numRows.symm)
    solution := ?_
    assignment := fun x hx => ?_
    role := fun x hx => ?_
    entry := fun r hr col => ?_
    rowVar := fun r hr => ?_
    colVar := fun col hcol => ?_ }
  · rw [outcome_solution hR htwins.left, outcome_solution hR htwins.right, hpad.numCols]
    refine congrArg Except.ok (Array.map_congr_left fun x hx => ?_)
    exact hpad.value x (Nat.lt_add_right _ (Array.mem_range.mp hx))
  · rw [outcome_assignment hR htwins.left, outcome_assignment hR htwins.right,
      Error.checkIndex_eq_ok_iff.mpr hx,
      Error.checkIndex_eq_ok_iff.mpr (Nat.lt_of_lt_of_le hx hpad.numVars_le)]
    exact congrArg Except.ok (hpad.value x hx)
  · rw [outcome_role hR htwins.left, outcome_role hR htwins.right,
      Error.checkIndex_eq_ok_iff.mpr hx,
      Error.checkIndex_eq_ok_iff.mpr (Nat.lt_of_lt_of_le hx hpad.numVars_le)]
    exact congrArg Except.ok (hpad.role x hx)
  · rw [outcome_entry hR htwins.left, outcome_entry hR htwins.right,
      Error.checkIndex_eq_ok_iff.mpr hr,
      Error.checkIndex_eq_ok_iff.mpr (Nat.lt_of_lt_of_le hr hpad.maxRows_le), hpad.numCols]
    -- Past the last column both refuse, with the same index in the error.
    by_cases hcol : col < b.numCols
    · rw [Error.checkIndex_eq_ok_iff.mpr hcol]
      exact congrArg Except.ok (hpad.coeff r hr col hcol)
    · rw [Error.checkIndex, if_neg hcol]
      rfl
  · rw [hbasis, hbasis', hb.left.basis.rowVar?_eq hr,
      hb.right.basis.rowVar?_eq (Nat.lt_of_lt_of_le hr hpad.maxRows_le),
      hpad.inRow hb.left hb.right hr]
  · have hcol : col < b.numCols := by
      rw [← hsized.numCols]
      exact hcol
    rw [hbasis, hbasis', hb.left.basis.colVar?_eq hcol,
      hb.right.basis.colVar?_eq (by rw [hpad.numCols]; exact hcol),
      hpad.inCol hb.left hb.right hcol]

/-- Sessions of two solvers that have seen no constraint. -/
theorem Abreast.sameCourse {ops : List (Operation α)} (hops : Operation.Fit maxRows numCols ops)
    (h : Abreast R maxRows numCols c (ops.countP Operation.isConstraint) t.state t'.state) :
    SameCourse (numCols + maxRows) maxRows ops t t' := by
  have halike := session_abreast ops hops.within h
  generalize hrun : session ops t = x at halike
  generalize hrun' : session ops t' = x' at halike
  cases halike with
  | ok hs => exact .ended hrun hrun' hs.sameBelow
  | error hcut => exact .cut hcut hrun hrun'

end Abreast

/-! ### Rows that are not taken -/

section Spares

variable {β α : Type} [Scalar α] [Engine β α] [StrictScalar α] {R : Engine.Reading β α}
  {maxRows numCols : Nat} {c : Config α} {u : Traced (Solver β α)}

/-- The slacks of rows that are not taken, at a board. The bookkeeping says who owns the
    row, and no exchange of the run is about such a slack. -/
theorem idle_of_standing (h : Standing R maxRows numCols c u.state) : SparesIdle u := by
  rcases h.reports with ⟨Show, p, l, b, hR, hshow, hp, hrun, hhistory⟩
  have hv₀ := Problem.valid_board hp.rows c.tolerance
  have hv := hrun.valid hv₀
  have hsame := hrun.same
  have hsized := hR.sized _ _ hshow
  have hcols : u.state.numCols = b.numCols := hsized.numCols
  intro r hr hrm
  have hr : b.numRows ≤ r := by
    rw [← hsized.numRows]
    exact hr
  have hrm : r < b.maxRows := by
    rw [← hsized.maxRows]
    exact hrm
  have hrow := hv.basis.row r hrm
  rw [hv.spare r hr hrm] at hrow
  have hr₀ : (p.board c.tolerance).numRows ≤ r := by
    rw [← hsame.numRows]
    exact hr
  have hrm₀ : r < (p.board c.tolerance).maxRows := by
    rw [← hsame.maxRows]
    exact hrm
  -- A slack that was never taken in is where it started: in its own row, basic, at zero, and in
  -- no step of the history.
  constructor
  · rw [show u.state.basis = b.basis from hR.basis _ _ hshow, hcols, hv.basis.rowVar?_eq hrm,
      hv.spare r hr hrm]
  · rw [hcols, hasRole_iff_of_reports hR hshow]
    exact ⟨hrow.1, hrow.2.2⟩
  · have hvalue : b.value (b.numCols + r) = 0 := by
      rw [hsame.numCols, hrun.value_spare hv₀ hr₀ hrm₀]
      rfl
    rw [hcols, HasValue, value?_assignment hR hshow hrow.1, hvalue]
  · intro step hstep
    rw [hhistory] at hstep
    have hne := hrun.ne_spare hv₀ hr₀ hrm₀ _ (mem_of_mem_stepsOf hstep)
    rw [hcols, hsame.numCols]
    exact ⟨hne.1.symm, hne.2.symm⟩

end Spares

end Solver

/-! ### Both engines -/

/-- On both engines calls that fit a solver run the same course on one with room for more
    constraints, and the slacks of rows that are not taken are idle at the end of every
    session and between all iterations of its searches. Capacity is a reservation only: it
    costs memory and changes no number. -/
theorem sameCourse_of_capacity (numCols : Nat) (config : Config Binary32)
    (ops : List (Operation Binary32)) :
    (∀ m n t t', m ≤ n → Operation.Fit m numCols ops → Sequential.Made m numCols config t →
      Sequential.Made n numCols config t' → Solver.SameCourse (numCols + m) m ops t t') ∧
    (∀ m n host j j' s s' u u' i i', m ≤ n → Operation.Fit m numCols ops →
      Solver.parallel m numCols config ⟨.toHost host, j⟩ = .ok s u →
      Solver.parallel n numCols config ⟨.toHost host, j'⟩ = .ok s' u' →
      Solver.SameCourse (numCols + m) m ops ⟨s.attach u.state, i⟩ ⟨s'.attach u'.state, i'⟩) ∧
    (∀ maxRows t v, Sequential.Made maxRows numCols config t → Solver.Boundary ops t v →
      Solver.SparesIdle v) ∧
    ∀ maxRows t v, Parallel.Made maxRows numCols config t → Solver.Boundary ops t v →
      Solver.SparesIdle v := by
  refine ⟨?_, ?_, ?_, ?_⟩
  · rintro m n _ _ hle hops ⟨x, s, u, j, hmake, rfl⟩ ⟨x', s', u', j', hmake', rfl⟩
    rcases Solver.fresh_of_sequential hmake with ⟨hinput, rfl⟩
    rcases Solver.fresh_of_sequential hmake' with ⟨hinput', rfl⟩
    have hsize := (Solver.checkDimensions_eq_ok (Solver.checkInput_eq_ok hinput).1).2.2
    have hsize' := (Solver.checkDimensions_eq_ok (Solver.checkInput_eq_ok hinput').1).2.2
    exact Solver.Abreast.sameCourse (R := Sequential.reading) hops (Solver.abreast_fresh hle
      hops.rows (Sequential.describes_fresh hsize) (Sequential.describes_fresh hsize'))
  · intro m n host j j' s s' u u' i i' hle hops hmake hmake'
    rcases Parallel.fresh_of_parallel hmake with ⟨-, -, hdesc, engine, rfl⟩
    rcases Parallel.fresh_of_parallel hmake' with ⟨-, -, hdesc', engine', rfl⟩
    exact Solver.Abreast.sameCourse (R := Parallel.reading _) hops
      (Solver.abreast_fresh hle hops.rows hdesc hdesc')
  · intro maxRows t v hmade hboundary
    rcases Sequential.stage_of_made hmade with ⟨-, hstage⟩
    exact Solver.idle_of_standing (hboundary.standing hstage)
  · intro maxRows t v hmade hboundary
    rcases Parallel.stage_of_made hmade with ⟨-, width, hstage⟩
    exact Solver.idle_of_standing (hboundary.standing hstage)

/-- Calls that lead to one exchange. -/
def raisingSearch : List (Operation Binary32) := raisingCalls.map .build ++ [.solve 2]

/-- They fit a solver for one constraint. -/
theorem fit_raisingSearch : Operation.Fit 1 2 raisingSearch where
  within := by
    simp only [raisingSearch, raisingCalls, List.map_cons, List.map_nil, List.cons_append,
      List.nil_append, List.forall_mem_cons]
    exact ⟨.constraint, .bounds (by decide), .solve, fun o ho => absurd ho List.not_mem_nil⟩
  rows := by decide

/-- A solver for three constraints runs the same course as one for a single
    constraint. -/
theorem sameCourse_of_capacity_raising :
    (∃ t t' v, Sequential.Made 1 2 .standard t ∧ Sequential.Made 3 2 .standard t' ∧
      Solver.Boundary raisingSearch t' v ∧ v.state.history = #[⟨0, 2, 0⟩] ∧
      Solver.SameCourse (2 + 1) 1 raisingSearch t t' ∧ Solver.SparesIdle v) ∧
    ∃ s u s' u' v, Solver.parallel 1 2 .standard ⟨.toHost (.idle ⟨4, 1⟩), #[]⟩ = .ok s u ∧
      Solver.parallel 3 2 .standard ⟨.toHost (.idle ⟨4, 1⟩), #[]⟩ = .ok s' u' ∧
      Solver.Boundary raisingSearch ⟨s'.attach u'.state, #[]⟩ v ∧
      v.state.history = #[⟨0, 2, 0⟩] ∧
      Solver.SameCourse (2 + 1) 1 raisingSearch ⟨s.attach u.state, #[]⟩ ⟨s'.attach u'.state, #[]⟩ ∧
      Solver.SparesIdle v := by
  rcases sameCourse_of_capacity 2 .standard raisingSearch with ⟨hseq, hpar, hidle, hidle'⟩
  constructor
  -- Both solvers are built and the larger one is run, to see that the search does exchange
  -- something.
  · have hsmall : Exec.endsWith (Solver.sequential 1 2 .standard (⟨(), #[]⟩ : Traced Unit))
        (fun _ _ => true) = true := by decide +kernel
    have hrun : Exec.endsWith (Solver.sequential 3 2 .standard (⟨(), #[]⟩ : Traced Unit))
        (fun s _ => Exec.endsWith (Solver.session raisingSearch ⟨s, #[]⟩) fun _ v =>
          decide (v.state.history = #[⟨0, 2, 0⟩])) = true := by decide +kernel
    rcases Exec.exists_of_endsWith hsmall with ⟨s, u, hmake, -⟩
    rcases Exec.exists_of_endsWith hrun with ⟨s', u', hmake', hrest⟩
    rcases Exec.exists_of_endsWith hrest with ⟨answers, v, hsession, hhistory⟩
    have hmade : Sequential.Made 1 2 .standard ⟨s, #[]⟩ := ⟨_, s, u, #[], hmake, rfl⟩
    have hmade' : Sequential.Made 3 2 .standard ⟨s', #[]⟩ := ⟨_, s', u', #[], hmake', rfl⟩
    exact ⟨_, _, v, hmade, hmade', .after hsession, of_decide_eq_true hhistory,
      hseq 1 3 _ _ (by decide) fit_raisingSearch hmade hmade', hidle 3 _ v hmade' (.after hsession)⟩
  · have hsmall : Exec.endsWith (Solver.parallel 1 2 .standard ⟨.toHost (.idle ⟨4, 1⟩), #[]⟩)
        (fun _ _ => true) = true := by decide +kernel
    have hrun : Exec.endsWith (Solver.parallel 3 2 .standard ⟨.toHost (.idle ⟨4, 1⟩), #[]⟩)
        (fun s u => Exec.endsWith (Solver.session raisingSearch ⟨s.attach u.state, #[]⟩) fun _ v =>
          decide (v.state.history = #[⟨0, 2, 0⟩])) = true := by decide +kernel
    rcases Exec.exists_of_endsWith hsmall with ⟨s, u, hmake, -⟩
    rcases Exec.exists_of_endsWith hrun with ⟨s', u', hmake', hrest⟩
    rcases Exec.exists_of_endsWith hrest with ⟨answers, v, hsession, hhistory⟩
    have hmade' : Parallel.Made 3 2 .standard ⟨s'.attach u'.state, #[]⟩ :=
      ⟨_, _, s', u', #[], hmake', rfl⟩
    exact ⟨s, u, s', u', v, hmake, hmake', .after hsession, of_decide_eq_true hhistory,
      hpar 1 3 (.idle ⟨4, 1⟩) #[] #[] s s' u u' #[] #[] (by decide) fit_raisingSearch hmake hmake',
      hidle' 3 _ v hmade' (.after hsession)⟩

end BoundedSimplex
