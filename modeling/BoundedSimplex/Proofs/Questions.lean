import BoundedSimplex.Proofs.Twins
import BoundedSimplex.Solver.Report

/-!
# Questions to Both

What two solvers with one face are asked, they answer alike.

A question is answered from the engine, or from what the solver keeps apart
from it, and it leaves both as they were. The answers are those of the board:
the value and the role of a variable, a coefficient, and the text of the whole
tableau, which is put together from many smaller questions. A question about a
variable, row or column that does not exist gets the same error on both sides.

The text needs no such error. The variables in it are the owners of rows and
columns, and with the bookkeeping in order every row and column has one.

## Theorems

* `Solver.Twins.ensureBuilding`: Both accept changes, or neither does.
* `Solver.Twins.call_finished`, `Solver.Twins.solve_finished`: What finished solvers
  do.
* `Solver.Twins.assignment`, `Solver.Twins.role`, `Solver.Twins.solution`: The
  variables.
* `Solver.Twins.entry`: A coefficient.
* `Solver.Twins.render`: The tableau as text.
-/

namespace BoundedSimplex

namespace Solver

open Board Exec

namespace Twins

variable {β β' α γ : Type}

/-- Both solvers accept changes, or neither does. It is decided by the phase, which is a
    part of the common face. -/
theorem ensureBuilding {P : Workspace β α → Prop} {P' : Workspace β' α → Prop} {f : Face α}
    {t : Traced (Solver β α)} {t' : Traced (Solver β' α)}
    {E : Stop → Solver β α → Solver β' α → Prop} (h : Twins P P' f t.state t'.state)
    (hE : ∀ s s', f.phase ≠ .building → Twins P P' f s s' →
      E (.error (.solverFinished f.phase)) s s') :
    Alike (fun _ s s' => f.phase = .building ∧ Twins P P' f s s') E (Solver.ensureBuilding t)
      (Solver.ensureBuilding t') := by
  refine Alike.state ?_
  rw [h.phases.1, h.phases.2]
  cases hphase : f.phase with
  | building => exact Alike.pure ⟨rfl, h⟩
  | sat => exact .error (hphase ▸ hE _ _ (by rw [hphase]; decide) h)
  | unsat => exact .error (hphase ▸ hE _ _ (by rw [hphase]; decide) h)
  | aborted => exact .error (hphase ▸ hE _ _ (by rw [hphase]; decide) h)

section Finished

variable {P : Workspace β α → Prop} {P' : Workspace β' α → Prop} {f : Face α}
  {t : Traced (Solver β α)} {t' : Traced (Solver β' α)} {E : Stop → Solver β α → Solver β' α → Prop}
  (h : Twins P P' f t.state t'.state) (hphase : f.phase ≠ .building)
include h hphase

/-- Finished solvers look at nothing but the phase when they are told more of the system. So
    the engines need not even show one board for this. -/
theorem call_finished [BoundStore β α] [BoundStore β' α] (k : BuildCall α)
    (hE : ∀ s s', Twins P P' f s s' → E (.error (.solverFinished f.phase)) s s') :
    Alike (fun _ _ _ => False) E (Solver.call k t) (Solver.call k t') := by
  have hensure : Alike (fun _ _ _ => False) E (Solver.ensureBuilding t)
      (Solver.ensureBuilding t') :=
    (h.ensureBuilding fun s s' _ hs => hE s s' hs).mono (fun _ _ _ hs => hphase hs.1)
      fun _ _ _ he => he
  cases k with
  | constraint coeffs => exact hensure.bind fun _ _ _ _ hfalse => hfalse.elim
  | bounds v e =>
      rw [call_bounds_eq, call_bounds_eq]
      exact hensure.bind fun _ _ _ _ hfalse => hfalse.elim

/-- Finished solvers repeat their verdict, or refuse if they have none. The engine has no
    part in it. -/
theorem solve_finished [Engine β α] [Engine β' α] (fuel : Nat)
    (hE : ∀ s s', Twins P P' f s s' → E (.error (.solverFinished .aborted)) s s') :
    Alike (fun _ => Twins P P' f) E (Solver.solve fuel t) (Solver.solve fuel t') := by
  refine Alike.state ?_
  rw [h.phases.1, h.phases.2]
  cases hf : f.phase with
  | building => exact absurd hf hphase
  | sat => exact Alike.pure h
  | unsat => exact Alike.pure h
  | aborted => exact .error (hE _ _ h)

end Finished

variable {Show : Workspace β α → Board α → Prop} {Show' : Workspace β' α → Board α → Prop}
  {b : Board α} {f : Face α} {t : Traced (Solver β α)} {t' : Traced (Solver β' α)}
  {E : Stop → Solver β α → Solver β' α → Prop}

/-- What both engines reply to a question about a variable, row or column. -/
theorem onWorkspace_index {act : Exec (Workspace β α) γ} {act' : Exec (Workspace β' α) γ} {a : γ}
    {index size : Nat} (h : Twins (Show · b) (Show' · b) f t.state t'.state)
    (hl : ∀ w, Show w b → act.Replies w ((Error.checkIndex index size).map fun _ => a) (Show · b))
    (hr : ∀ w, Show' w b →
      act'.Replies w ((Error.checkIndex index size).map fun _ => a) (Show' · b))
    (hE : ∀ s s', size ≤ index → Twins (Show · b) (Show' · b) f s s' →
      E (.error (.indexOutOfBounds index size)) s s') :
    Alike (fun r s s' => (index < size ∧ r = a) ∧ Twins (Show · b) (Show' · b) f s s') E
      (Solver.onWorkspace act t) (Solver.onWorkspace act' t') := by
  unfold Error.checkIndex at hl hr
  -- In range both reply with the value; out of range both refuse with the same index and size.
  by_cases hlt : index < size
  · simp only [if_pos hlt, Except.map] at hl hr
    refine (h.onWorkspace hl hr).mono ?_ fun _ _ _ he => he
    rintro r s s' ⟨rfl, hs⟩
    exact ⟨⟨hlt, rfl⟩, hs⟩
  · simp only [if_neg hlt, Except.map] at hl hr
    refine (h.onWorkspace_replies hl hr ?_).mono ?_ fun _ _ _ he => he
    · intro e s s' he hs
      cases he
      exact hE s s' (Nat.le_of_not_lt hlt) hs
    · rintro r s s' ⟨hr, -⟩
      cases hr

variable [Engine β α] [Engine β' α] (hR : Engine.Reports Show) (hR' : Engine.Reports Show')
  (h : Twins (Show · b) (Show' · b) f t.state t'.state)
include hR hR' h

theorem numCols_eq : t.state.numCols = b.numCols ∧ t'.state.numCols = b.numCols :=
  ⟨(hR.sized _ _ h.left).numCols, (hR'.sized _ _ h.right).numCols⟩

theorem maxRows_eq : t.state.maxRows = b.maxRows ∧ t'.state.maxRows = b.maxRows :=
  ⟨(hR.sized _ _ h.left).maxRows, (hR'.sized _ _ h.right).maxRows⟩

theorem numRows_eq : t.state.numRows = b.numRows ∧ t'.state.numRows = b.numRows :=
  ⟨(hR.sized _ _ h.left).numRows, (hR'.sized _ _ h.right).numRows⟩

theorem basis_eq : t.state.basis = b.basis ∧ t'.state.basis = b.basis :=
  ⟨hR.basis _ _ h.left, hR'.basis _ _ h.right⟩

theorem assignment {v : Nat} (hE : ∀ s s', b.numVars ≤ v → Twins (Show · b) (Show' · b) f s s' →
      E (.error (.indexOutOfBounds v b.numVars)) s s') :
    Alike (fun x s s' => (v < b.numVars ∧ x = b.value v) ∧ Twins (Show · b) (Show' · b) f s s') E
      (Solver.assignment v t) (Solver.assignment v t') := by
  unfold Solver.assignment onEngine Workspace.onEngine
  exact h.onWorkspace_index (fun w hw => .focus (hR.assignment w b v hw))
    (fun w hw => .focus (hR'.assignment w b v hw)) hE

theorem role {v : Nat} (hE : ∀ s s', b.numVars ≤ v → Twins (Show · b) (Show' · b) f s s' →
      E (.error (.indexOutOfBounds v b.numVars)) s s') :
    Alike (fun r s s' => (v < b.numVars ∧ r = b.role v) ∧ Twins (Show · b) (Show' · b) f s s') E
      (Solver.role v t) (Solver.role v t') := by
  unfold Solver.role onEngine Workspace.onEngine
  exact h.onWorkspace_index (fun w hw => .focus (hR.role w b v hw))
    (fun w hw => .focus (hR'.role w b v hw)) hE

theorem solution :
    Alike (fun xs s s' => xs = (Array.range b.numCols).map b.value ∧
      Twins (Show · b) (Show' · b) f s s') E (Solver.solution t) (Solver.solution t') := by
  rcases numCols_eq hR hR' h with ⟨hcols, hcols'⟩
  refine Alike.state ?_
  rw [hcols, hcols']
  unfold onEngine Workspace.onEngine
  exact h.onWorkspace (fun w hw => Gives.focus (hR.assignments w b hw))
    fun w hw => Gives.focus (hR'.assignments w b hw)

/-- The row is looked at before the column. If both are out of range the error is about the
    row, on either engine. -/
theorem entry {r c : Nat} (hrow : ∀ s s', b.maxRows ≤ r → Twins (Show · b) (Show' · b) f s s' →
      E (.error (.indexOutOfBounds r b.maxRows)) s s')
    (hcol : ∀ s s', b.numCols ≤ c → Twins (Show · b) (Show' · b) f s s' →
      E (.error (.indexOutOfBounds c b.numCols)) s s') :
    Alike (fun x s s' => x = b.coeff r c ∧ Twins (Show · b) (Show' · b) f s s') E
      (Solver.entry r c t) (Solver.entry r c t') := by
  rcases maxRows_eq hR hR' h with ⟨hrows, hrows'⟩
  rcases numCols_eq hR hR' h with ⟨hcols, hcols'⟩
  -- The checks use the sizes of the solver, and those are the sizes of the board on both sides.
  have hcheck : ∀ (i n : Nat) {u : Traced (Solver β α)} {u' : Traced (Solver β' α)},
      Twins (Show · b) (Show' · b) f u.state u'.state →
      (∀ s s', n ≤ i → Twins (Show · b) (Show' · b) f s s' →
        E (.error (.indexOutOfBounds i n)) s s') →
      Alike (fun _ s s' => i < n ∧ Twins (Show · b) (Show' · b) f s s') E
        (Exec.check (Error.checkIndex i n) u) (Exec.check (Error.checkIndex i n) u') := by
    intro i n u u' hu hE
    refine Alike.check (fun _ hok => ⟨Error.checkIndex_eq_ok_iff.mp hok, hu⟩) fun e he => ?_
    unfold Error.checkIndex at he
    by_cases hlt : i < n
    · rw [if_pos hlt] at he
      cases he
    · rw [if_neg hlt] at he
      cases he
      exact hE _ _ (Nat.le_of_not_lt hlt) hu
  refine Alike.state ?_
  rw [hrows, hrows', hcols, hcols']
  refine (hcheck r b.maxRows h hrow).bind ?_
  rintro _ u u' - ⟨hr, h₁⟩
  refine (hcheck c b.numCols h₁ hcol).bind ?_
  rintro _ v v' - ⟨hc, h₂⟩
  exact h₂.onWorkspace (fun w hw => hR.entry w b r c hw hr hc)
    fun w hw => hR'.entry w b r c hw hr hc

/-! ### The tableau as text -/

variable [Scalar α]

theorem label {v : Nat} (hv : v < b.numVars) :
    Alike (fun _ => Twins (Show · b) (Show' · b) f) E (Solver.label v t) (Solver.label v t') := by
  rcases numCols_eq hR hR' h with ⟨hcols, hcols'⟩
  refine Alike.state ?_
  rw [hcols, hcols']
  refine (assignment hR hR' h fun _ _ hle => absurd hv (Nat.not_lt_of_le hle)).bind ?_
  rintro x u u' - ⟨-, h₁⟩
  exact Alike.pure h₁

theorem renderRow (hv : b.Valid) {r : Nat} (hr : r < b.numRows) :
    Alike (fun _ => Twins (Show · b) (Show' · b) f) E (Solver.renderRow r t)
      (Solver.renderRow r t') := by
  have hrm : r < b.maxRows := Nat.lt_of_lt_of_le hr hv.numRows_le
  rcases numCols_eq hR hR' h with ⟨hcols, hcols'⟩
  rcases basis_eq hR hR' h with ⟨hbasis, hbasis'⟩
  -- Only the labels and the cells are asked of the engine; the rest is a function of the basis
  -- and of the sizes.
  refine Alike.state ?_
  rw [hcols, hcols', hbasis, hbasis', hv.basis.rowVar?_eq hrm]
  refine (label hR hR' h (hv.basis.row r hrm).1).bind fun head u u' _ h₁ => ?_
  refine (Alike.mapM (I := Twins (Show · b) (Show' · b) f) (fun c hc {u u'} hu => ?_) h₁).bind
    fun cells v v' _ h₂ => Alike.pure h₂
  have hc' := List.mem_range.mp hc
  refine (entry hR hR' hu (fun _ _ hle => absurd hrm (Nat.not_lt_of_le hle))
    fun _ _ hle => absurd hc' (Nat.not_lt_of_le hle)).bind ?_
  rintro x v v' - ⟨-, hx⟩
  exact Alike.pure hx

theorem render (hv : b.Valid) :
    Alike (fun _ => Twins (Show · b) (Show' · b) f) E (Solver.render t) (Solver.render t') := by
  rcases numCols_eq hR hR' h with ⟨hcols, hcols'⟩
  rcases numRows_eq hR hR' h with ⟨hrows, hrows'⟩
  rcases basis_eq hR hR' h with ⟨hbasis, hbasis'⟩
  refine Alike.state ?_
  rw [hcols, hcols', hrows, hrows', hbasis, hbasis']
  -- The header first, then a line for each row that is taken.
  refine (Alike.mapM (I := Twins (Show · b) (Show' · b) f) (fun c hc {u u'} hu => ?_) h).bind
    fun header u u' _ h₁ => ?_
  · have hc' := List.mem_range.mp hc
    rw [hv.basis.colVar?_eq hc']
    exact label hR hR' hu (hv.basis.col c hc').1
  · refine (Alike.mapM (I := Twins (Show · b) (Show' · b) f) (fun r hr {v v'} hu => ?_) h₁).bind
      fun rows v v' _ h₂ => Alike.pure h₂
    exact renderRow hR hR' hu hv (List.mem_range.mp hr)

end Twins

end Solver

end BoundedSimplex
