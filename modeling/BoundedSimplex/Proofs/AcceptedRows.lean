import BoundedSimplex.Proofs.Frozen

/-!
# Accepted Rows

The tableau of a solver that is still built.

A constraint that is accepted becomes the next row of the tableau, and nothing else
a caller can do before the search touches the tableau. So its rows can be told from
the answers: they are the constraints that were not refused, in the order in which
they were added. All other rows are zero.

The search itself changes the tableau. But there is no way back from it, so a
solver that is still built has not searched.

## Main definitions

* `Tableau.Holds`: The rows of a tableau.
* `Solver.accepted`: The constraints that were not refused in a session.

## Theorems

* `Tableau.Holds.addRow`: One more row.
* `Solver.answer_holds`: One operation.
* `Solver.session_holds`: All operations of a session.
-/

namespace BoundedSimplex

open Exec

/-! ### Rows -/

namespace Tableau

variable {α : Type}

/-- A row by its coefficients. -/
theorem row?_eq_some {t : Tableau α} {r : Nat} (hr : r < t.maxRows) {row : Array α}
    (hsize : row.size = t.numCols) (h : ∀ c < t.numCols, t.coeff? r c = row[c]?) :
    t.row? r = some row := by
  have hend : (r + 1) * t.numCols ≤ t.cells.size := by
    rw [t.size_cells]
    exact Nat.mul_le_mul_right t.numCols hr
  rw [row?, if_pos hend, Option.some.injEq]
  refine Array.ext_getElem? fun c => ?_
  rw [Array.getElem?_extract, Nat.min_eq_left hend, Nat.succ_mul, Nat.add_sub_cancel_left]
  by_cases hc : c < t.numCols
  · rw [if_pos hc, ← h c hc, coeff?_eq_cell? hc]
    rfl
  · rw [if_neg hc, Array.getElem?_eq_none (by omega)]

/-- The coefficients of a row. -/
theorem coeff?_of_row? {t : Tableau α} {r c : Nat} {row : Array α} (h : t.row? r = some row)
    (hc : c < t.numCols) : t.coeff? r c = row[c]? := by
  unfold row? at h
  split at h
  · rename_i hend
    cases h
    rw [coeff?_eq_cell? hc, Array.getElem?_extract, Nat.min_eq_left hend, Nat.succ_mul,
      Nat.add_sub_cancel_left, if_pos hc]
    rfl
  · cases h

end Tableau

/-- The rows of a tableau that are taken, in this order, with all others zero. The
    dimensions are not stated here, since they are those the tableau was made with. -/
structure Tableau.Holds {α : Type} [Zero α] (t : Tableau α) (rows : List (Array α)) : Prop where
  numRows : t.numRows = rows.length
  le : rows.length ≤ t.maxRows
  width : ∀ row ∈ rows, row.size = t.numCols
  row : ∀ r < t.maxRows, t.row? r = some (rows.getD r (Array.replicate t.numCols 0))

section Rows

variable {α : Type} [Scalar α] {t : Tableau α} {p : Problem α} {rows : List (Array α)}

/-- A row of a problem, which is zero where there is none. -/
theorem Problem.getElem?_row {r c : Nat} (hwidth : ∀ row ∈ p.rows, row.size = p.numCols)
    (hc : c < p.numCols) :
    (p.rows.getD r (Array.replicate p.numCols 0))[c]? = some (p.coeff r c) := by
  rw [Problem.coeff, List.getD_eq_getElem?_getD]
  cases hrow : p.rows[r]? with
  | none => rw [Option.getD_none, Array.getElem?_replicate, if_pos hc, Option.bind_none,
      Option.getD_none]
  | some row =>
      have hlt : c < row.size := by
        rw [hwidth row (List.mem_of_getElem? hrow)]
        exact hc
      rw [Option.getD_some, Option.bind_some, Array.getElem?_eq_getElem hlt, Option.getD_some]

/-- A tableau with the coefficients of a problem holds its rows, and the other way round.
    Rows are compared as a whole, with their width, and coefficients one by one. -/
theorem Tableau.holds_iff (tolerance : α) (hmax : t.maxRows = p.maxRows)
    (hcols : t.numCols = p.numCols) (hwidth : ∀ row ∈ p.rows, row.size = p.numCols)
    (hle : p.rows.length ≤ p.maxRows) :
    t.Holds p.rows ↔ t.Describes (p.board tolerance) := by
  constructor
  · intro h
    refine ⟨hmax, h.numRows, hcols, fun r hr c hc => ?_⟩
    rw [coeff?_of_row? (h.row r hr) hc, hcols]
    exact Problem.getElem?_row hwidth (hcols ▸ hc)
  · intro h
    refine ⟨h.numRows, by rw [hmax]; exact hle, by rw [hcols]; exact hwidth, fun r hr => ?_⟩
    -- A row that is read as a whole has the width of its list, also where the list is too short
    -- and zeros stand in.
    refine row?_eq_some hr ?_ fun c hc => ?_
    · rw [List.getD_eq_getElem?_getD, hcols]
      cases hrow : p.rows[r]? with
      | none => exact Array.size_replicate
      | some row => exact hwidth row (List.mem_of_getElem? hrow)
    · rw [h.coeff r hr c hc, hcols]
      exact (Problem.getElem?_row hwidth (hcols ▸ hc)).symm

/-- A row is taken if it has the right width and there is room for it. The width is checked
    first, so a row with both faults is refused for its width. -/
theorem Tableau.Holds.addRow (h : t.Holds rows) {coeffs : Array α}
    (hroom : coeffs.size = t.numCols ∧ rows.length < t.maxRows) :
    ∃ u, t.addRow coeffs = .ok (rows.length, u) ∧ u.Holds (rows ++ [coeffs]) ∧
      u.maxRows = t.maxRows ∧ u.numCols = t.numCols := by
  -- A tableau that holds the rows is the tableau of a problem without bounds, and what adding a
  -- row to that one does is known.
  have hdesc := (holds_iff (p := ⟨t.maxRows, t.numCols, rows, fun _ => .nonnegative⟩)
    0 rfl rfl h.width h.le).mp h
  rcases Solver.describes_addRow hdesc hroom with ⟨u, hadd, hu⟩
  have hcall : Problem.call ⟨t.maxRows, t.numCols, rows, fun _ => .nonnegative⟩
      (.constraint coeffs) = ⟨t.maxRows, t.numCols, rows ++ [coeffs], fun _ => .nonnegative⟩ :=
    if_pos hroom
  rw [hcall] at hu
  refine ⟨u, hadd, (holds_iff 0 hu.maxRows hu.numCols (fun row hrow => ?_) ?_).mpr hu, hu.maxRows,
    hu.numCols⟩
  · rcases List.mem_append.mp hrow with hold | hnew
    · exact h.width row hold
    · rw [List.mem_singleton.mp hnew]
      exact hroom.1
  · show (rows ++ [coeffs]).length ≤ t.maxRows
    rw [List.length_append, List.length_singleton]
    exact hroom.2

/-- Otherwise it is refused. -/
theorem Tableau.Holds.addRow_refused (h : t.Holds rows) {coeffs : Array α}
    (hno : ¬ (coeffs.size = t.numCols ∧ rows.length < t.maxRows)) :
    ∃ e, t.addRow coeffs = .error e := by
  have hdesc := (holds_iff (p := ⟨t.maxRows, t.numCols, rows, fun _ => .nonnegative⟩)
    0 rfl rfl h.width h.le).mp h
  exact hdesc.addRow_refused hno

end Rows

/-- A new tableau holds no rows. -/
theorem Tableau.holds_empty {α : Type} [Zero α] (maxRows numCols : Nat) :
    (Tableau.empty maxRows numCols : Tableau α).Holds [] where
  numRows := rfl
  le := Nat.zero_le _
  width := nofun
  row r hr := by
    refine row?_eq_some hr Array.size_replicate fun c hc => ?_
    rw [shows_empty maxRows numCols r hr c hc]
    exact ((Array.getElem?_replicate ..).trans (if_pos hc)).symm

/-! ### Sessions -/

namespace Solver

variable {β α κ : Type} [Scalar α] [Engine β α] {o : Operation α} {a : Except Error (Answer α)}
  {t u : Traced (Solver β α)} {rows : List (Array α)}

/-- The rows that were accepted, by the answers to a session. -/
def accepted : List (Operation α) → List (Except Error (Answer α)) → List (Array α)
  | .build (.constraint coeffs) :: ops, .ok _ :: answers => coeffs :: accepted ops answers
  | _ :: ops, _ :: answers => accepted ops answers
  | _, _ => []

omit [Scalar α] in
theorem accepted_cons (o : Operation α) (ops : List (Operation α)) (a : Except Error (Answer α))
    (answers : List (Except Error (Answer α))) :
    accepted (o :: ops) (a :: answers) = accepted [o] [a] ++ accepted ops answers := by
  cases o with
  | build c =>
      cases c with
      | constraint coeffs => cases a <;> rfl
      | bounds v e => cases a <;> rfl
  | _ => cases a <;> rfl

omit [Scalar α] [Engine β α] in
theorem ensureBuilding_eq (h : t.state.phase = .building) : ensureBuilding t = .ok () t := by
  have hopen : t.state.phase.isFinished = false := by
    rw [h]
    rfl
  unfold ensureBuilding
  rw [bind_ok (show Exec.state t = .ok t.state t from rfl), hopen]
  rfl

omit [Scalar α] [Engine β α] in
theorem addConstraint_eq (h : t.state.phase = .building) (coeffs : Array α) :
    addConstraint coeffs t = match t.state.workspace.tableau.addRow coeffs with
      | .ok (row, tableau) => .ok ()
        ⟨{ t.state with workspace := { t.state.workspace with tableau := tableau } },
          t.journal.push (.constraintAdded row)⟩
      | .error e => .error (.error e) t := by
  unfold addConstraint
  rw [bind_ok (ensureBuilding_eq h), bind_ok (show Exec.state t = .ok t.state t from rfl)]
  cases t.state.workspace.tableau.addRow coeffs with
  | ok x => rfl
  | error e => rfl

omit [Scalar α] [Engine β α] in
/-- An operation of the engine leaves the tableau of the process alone. -/
theorem onEngine_keeps_tableau {γ : Type} (act : Exec β γ) (t : Traced (Solver β α)) :
    (Exec.final (onEngine act t)).state.workspace.tableau = t.state.workspace.tableau := by
  unfold onEngine onWorkspace Workspace.onEngine Exec.focus
  cases act ⟨t.state.workspace.engine, t.journal⟩ <;> rfl

theorem answer_of_call {c : BuildCall α} (h : call c t = .ok () u) :
    answer (.build c) t = .ok (.ok .done) u := by
  have hperform : (perform (.build c) : Exec (Solver β α) (Answer α)) t = .ok .done u := bind_ok h
  rw [answer, Exec.onError, bind_ok hperform]
  rfl

theorem answer_of_refused {c : BuildCall α} {e : Error} (h : call c t = .error (.error e) u) :
    answer (.build c) t = .ok (.error e) u := by
  have hperform : (perform (.build c) : Exec (Solver β α) (Answer α)) t = .error (.error e) u :=
    bind_error h
  rw [answer, Exec.onError, bind_error hperform]
  rfl

/-- A constraint is one more row of the tableau if it is accepted, and none if it is
    refused. -/
theorem answer_constraint_holds (hphase : t.state.phase = .building) {coeffs : Array α}
    (h : answer (.build (.constraint coeffs)) t = .ok a u)
    (hrows : t.state.workspace.tableau.Holds rows) :
    u.state.workspace.tableau.Holds (rows ++ accepted [.build (.constraint coeffs)] [a]) := by
  have hcall : call (.constraint coeffs) t = _ := addConstraint_eq hphase coeffs
  by_cases hroom : coeffs.size = t.state.workspace.tableau.numCols ∧
      rows.length < t.state.workspace.tableau.maxRows
  · rcases hrows.addRow hroom with ⟨x, hadd, hx, -⟩
    rw [hadd] at hcall
    cases h.symm.trans (answer_of_call hcall)
    exact hx
  -- A refused row leaves nothing behind, and it does not count as accepted.
  · rcases hrows.addRow_refused hroom with ⟨e, hadd⟩
    rw [hadd] at hcall
    cases h.symm.trans (answer_of_refused hcall)
    have hnone : accepted [.build (.constraint coeffs)]
        [(.error e : Except Error (Answer α))] = [] :=
      rfl
    rw [hnone, List.append_nil]
    exact hrows

section Rereads

variable {core : Workspace β α → κ} {E : κ → Stop → Prop} (hR : Engine.Rereads core E)
  (htableau : ∀ w w' : Workspace β α, core w = core w' → w.tableau = w'.tableau)
include hR htableau

/-- One operation, after which the solver is still built: the tableau holds one more
    row if it was accepted. -/
theorem answer_holds (hphase : t.state.phase = .building) (hphase' : u.state.phase = .building)
    (h : answer o t = .ok a u) (hrows : t.state.workspace.tableau.Holds rows) :
    u.state.workspace.tableau.Holds (rows ++ accepted [o] [a]) := by
  have hfinal := final_of_answer h
  -- All operations but a constraint are of one kind: they accept nothing and leave the tableau
  -- alone.
  have hsame : accepted [o] [a] = [] →
      u.state.workspace.tableau = t.state.workspace.tableau →
      u.state.workspace.tableau.Holds (rows ++ accepted [o] [a]) := by
    intro hnone htab
    rw [hnone, List.append_nil, htab]
    exact hrows
  cases o with
  | build c =>
      cases c with
      | constraint coeffs => exact answer_constraint_holds hphase h hrows
      | bounds v e =>
          have hcall : call (.bounds v e) t = onEngine (e.inStore v) t := by
            rw [call_bounds_eq, bind_ok (ensureBuilding_eq hphase)]
          refine hsame (by cases a <;> rfl) ?_
          rw [← hfinal, final_perform_build, hcall]
          exact onEngine_keeps_tableau (e.inStore v) t
  | solve fuel => exact absurd hphase' (phase_of_solve h)
  | observe _ | takeNotices =>
      refine hsame ?_ ?_
      · cases a <;> rfl
      · rw [← hfinal]
        rfl
  | assignment _ | solution | role _ | entry _ _ | render | account =>
      refine hsame ?_ (htableau _ _ ?_)
      · cases a <;> rfl
      · rw [← hfinal]
        exact congrArg Prod.fst ((question_looks hR (by trivial)).keeps t)

/-- All operations of a session, after which the solver is still built. An operation that is
    answered without a search leaves the rows or takes one more, and this follows by
    induction on the operations. -/
theorem session_holds : ∀ {ops : List (Operation α)} {answers} {t : Traced (Solver β α)}
    {rows : List (Array α)}, t.state.phase = .building → session ops t = .ok answers u →
    u.state.phase = .building → t.state.workspace.tableau.Holds rows →
    u.state.workspace.tableau.Holds (rows ++ accepted ops answers) := by
  intro ops
  induction ops with
  | nil =>
      rintro answers t rows - h - hrows
      cases h
      rw [accepted.eq_def]
      rw [List.append_nil]
      exact hrows
  | cons o rest ih =>
      intro answers t rows hphase h hphase' hrows
      rcases session_cons h with ⟨a, v, as, hanswer, hsession, rfl⟩
      -- A finished solver would not have become one that is still built.
      have hmiddle : v.state.phase = .building := by
        by_contra hfinished
        have hkept := phase_of_core (after_keeps_core hR rest hfinished)
        rw [after_of_session hsession, hphase'] at hkept
        exact hfinished hkept.symm
      rw [accepted_cons, ← List.append_assoc]
      exact ih hmiddle hsession hphase' (answer_holds hR htableau hphase hmiddle hanswer hrows)

end Rereads

end Solver

end BoundedSimplex
