import BoundedSimplex.Proofs.AcceptedRows
import BoundedSimplex.Proofs.Bookkeeping
import BoundedSimplex.Proofs.CommutingEdits

/-!
# The Order of Calls

Calls that build a system, one after the other.

A caller adds constraints and sets bounds in any order. What is wrong with a call
can be seen before anything is done for it, and then nothing is done: the solver,
its engine and the journal are as they were. Otherwise the call is a step from one
state to another. Two steps commute unless both add a constraint, which have their
place in the tableau, or both set the same bound of the same variable, of which the
last one counts.

The order makes no difference to the answers either. So it makes none to what
follows, to further calls and to the search.

## Main definitions

* `BuildCall.fault?`: What is wrong with a call.
* `BuildCall.reply`, `BuildCall.next`: How a call is answered, and where it leads.
* `Solver.Orderly`: All this together.

## Theorems

* `Solver.call_eq`: A call is its answer and its step.
* `Solver.reply_next`, `Solver.next_comm`: Two calls in either order.
* `Solver.session_swap`: Two calls within a sequence.
* `calls_orderly`: Solvers on both engines.
-/

namespace BoundedSimplex

open Exec

/-! ### Solvers -/

namespace BuildCall

variable {β α : Type} [BoundStore β α]

/-- What is wrong with a call: the number of coefficients, one constraint too many,
    or a variable that does not exist. -/
def fault? (s : Solver β α) : BuildCall α → Option Error
  | .constraint coeffs =>
    if coeffs.size ≠ s.numCols then some (.constraintWidth s.numCols coeffs.size)
    else if s.maxRows ≤ s.numRows then some (.capacityExceeded s.maxRows)
    else none
  | .bounds v _ => if v < s.numVars then none else some (.indexOutOfBounds v s.numVars)

/-- How a call is answered. This depends on the size of the system and on how many rows are
    taken, and on no bound. -/
def reply (s : Solver β α) : BuildCall α → Except Error Unit
  | .constraint coeffs => (s.workspace.tableau.addRow coeffs).map fun _ => ()
  | .bounds v _ => Error.checkIndex v (BoundStore.numVars s.workspace.engine)

/-- Where a call leads, for an engine whose bounds are changed by `after`. -/
def next (after : Nat → BoundEdit α → β → β) (t : Traced (Solver β α)) :
    BuildCall α → Traced (Solver β α)
  | .constraint coeffs =>
    match t.state.workspace.tableau.addRow coeffs with
    | .ok (row, tableau) =>
      ⟨{ t.state with workspace := { t.state.workspace with tableau := tableau } },
        t.journal.push (.constraintAdded row)⟩
    | .error _ => t
  | .bounds v e =>
    if v < BoundStore.numVars t.state.workspace.engine then
      ⟨{ t.state with workspace :=
        { t.state.workspace with engine := after v e t.state.workspace.engine } }, t.journal⟩
    else t

end BuildCall

namespace Solver

variable {β α : Type} [BoundStore β α] {Fine : β → Prop} {after : Nat → BoundEdit α → β → β}
  {t : Traced (Solver β α)} {c c' : BuildCall α}

/-- A solver that is still built, on an engine whose bounds can be changed. On a device this
    needs the buffers of the bounds and a gateway that refuses nothing, in the process
    nothing at all. -/
structure Editable (Fine : β → Prop) (s : Solver β α) : Prop where
  phase : s.phase = .building
  fine : Fine s.workspace.engine

/-- A call is carried out, or refused and then without effect. Both engines enter through
    `Edits`, so nothing below this asks again which of them it is. -/
theorem call_eq (hE : BoundStore.Edits Fine after) (h : t.state.Editable Fine) (c : BuildCall α) :
    call c t = match c.reply t.state with
      | .ok _ => .ok () (c.next after t)
      | .error e => .error (.error e) t := by
  cases c with
  -- The bounds of the engine are not looked at: only the tableau can refuse a row.
  | constraint coeffs =>
      rw [show call (.constraint coeffs) t = _ from addConstraint_eq h.phase coeffs,
        BuildCall.reply, BuildCall.next]
      cases t.state.workspace.tableau.addRow coeffs with
      | ok x => rfl
      | error e => rfl
  | bounds v e =>
      rw [call_bounds_eq, bind_ok (ensureBuilding_eq h.phase), BuildCall.reply, BuildCall.next,
        Error.checkIndex]
      unfold onEngine onWorkspace Workspace.onEngine
      -- The index is checked in the workspace first, then again by the engine; both see the same
      -- number of variables, so one split settles both.
      rcases Nat.lt_or_ge v (BoundStore.numVars t.state.workspace.engine) with hv | hv
      · rw [if_pos hv, if_pos hv]
        have hcall := hE.done e t.journal h.fine hv
        exact focus_ok (focus_ok (t := ⟨t.state.workspace, t.journal⟩) hcall)
      · rw [if_neg (Nat.not_lt_of_le hv)]
        have hcall := hE.refused e t.journal h.fine hv
        exact focus_error (focus_error (t := ⟨t.state.workspace, t.journal⟩) hcall)

/-- A call that is refused leads nowhere. -/
theorem next_of_error {e : Error} (h : c.reply t.state = .error e) : c.next after t = t := by
  cases c with
  | constraint coeffs =>
      rw [BuildCall.reply] at h
      rw [BuildCall.next]
      cases hadd : t.state.workspace.tableau.addRow coeffs with
      | ok x =>
          rw [hadd] at h
          cases h
      | error e => rfl
  | bounds v e =>
      rw [BuildCall.reply, Error.checkIndex] at h
      rw [BuildCall.next]
      split at h
      · cases h
      · rename_i hv
        exact if_neg hv

theorem Editable.next (hE : BoundStore.Edits Fine after) (h : t.state.Editable Fine)
    (c : BuildCall α) : (c.next after t).state.Editable Fine := by
  cases c with
  | constraint coeffs =>
      rw [BuildCall.next]
      cases t.state.workspace.tableau.addRow coeffs with
      | ok x => exact ⟨h.phase, h.fine⟩
      | error e => exact h
  | bounds v e =>
      rw [BuildCall.next]
      split
      · exact ⟨h.phase, hE.fine v e h.fine⟩
      · exact h

/-- What a call is answered does not depend on whether another one came before. Only two
    constraints get in the way of each other, since the second may find no room. -/
theorem reply_next (hE : BoundStore.Edits Fine after) (hapart : c.Apart c')
    (t : Traced (Solver β α)) : c'.reply (c.next after t).state = c'.reply t.state := by
  cases c with
  | constraint coeffs =>
      cases c' with
      | constraint _ => exact hapart.elim
      | bounds v e =>
          rw [BuildCall.next]
          cases t.state.workspace.tableau.addRow coeffs with
          | ok x => rfl
          | error e => rfl
  | bounds v e =>
      rw [BuildCall.next]
      split
      · cases c' with
        | constraint _ => rfl
        | bounds v' e' =>
            show Error.checkIndex v' (BoundStore.numVars (after v e _)) = _
            rw [hE.numVars]
            rfl
      · rfl

/-- Taking a row and changing bounds have nothing to do with each other. -/
theorem next_bounds_constraint (after : Nat → BoundEdit α → β → β) (v : Nat) (e : BoundEdit α)
    (coeffs : Array α) (t : Traced (Solver β α)) :
    BuildCall.next after (BuildCall.next after t (.constraint coeffs)) (.bounds v e)
      = BuildCall.next after (BuildCall.next after t (.bounds v e)) (.constraint coeffs) := by
  by_cases hv : v < BoundStore.numVars t.state.workspace.engine
  · cases hadd : t.state.workspace.tableau.addRow coeffs <;>
      simp only [BuildCall.next, hadd, if_pos hv]
  · cases hadd : t.state.workspace.tableau.addRow coeffs <;>
      simp only [BuildCall.next, hadd, if_neg hv]

/-- Nor does it matter where both together lead. `Apart` leaves out two constraints, whose
    order is the order of the rows, and two edits of one side of one variable. -/
theorem next_comm (hE : BoundStore.Edits Fine after) (hapart : c.Apart c')
    (h : t.state.Editable Fine) :
    c'.next after (c.next after t) = c.next after (c'.next after t) := by
  cases c with
  | constraint coeffs =>
      cases c' with
      | constraint _ => exact hapart.elim
      -- A constraint and a bound touch different parts of the solver.
      | bounds v e => exact next_bounds_constraint after v e coeffs t
  | bounds v e =>
      cases c' with
      | constraint coeffs => exact (next_bounds_constraint after v e coeffs t).symm
      | bounds v' e' =>
          -- Two bounds meet in the engine. An index that is out of range makes its call a no-op,
          -- and then the order cannot matter.
          have hcomm := hE.comm h.fine hapart
          by_cases hv : v < BoundStore.numVars t.state.workspace.engine
          · by_cases hv' : v' < BoundStore.numVars t.state.workspace.engine
            · simp only [BuildCall.next, hE.numVars, if_pos hv, if_pos hv', hcomm]
            · simp only [BuildCall.next, hE.numVars, if_pos hv, if_neg hv']
          · simp only [BuildCall.next, if_neg hv]
            split <;> simp only [hE.numVars, if_neg hv]

end Solver

namespace Solver

variable {β α : Type} [Scalar α] [Engine β α] {t u : Traced (Solver β α)}

/-! ### Calls in a session -/

section Order

variable {Fine : β → Prop} {after : Nat → BoundEdit α → β → β} {c c' : BuildCall α}

theorem session_append {ops ops' : List (Operation α)} {as bs : List (Except Error (Answer α))}
    {v : Traced (Solver β α)} (h : session ops t = .ok as u) (h' : session ops' u = .ok bs v) :
    session (ops ++ ops') t = .ok (as ++ bs) v := by
  unfold session at h h' ⊢
  rw [List.mapM_append, bind_ok h, bind_ok h']
  rfl

/-- A call is answered, and then the solver is where it leads. -/
theorem answer_build (hE : BoundStore.Edits Fine after) (h : t.state.Editable Fine)
    (c : BuildCall α) :
    answer (.build c) t = .ok ((c.reply t.state).map fun _ => .done) (c.next after t) := by
  have hcall := call_eq hE h c
  cases hreply : c.reply t.state with
  | ok x =>
      rw [hreply] at hcall
      exact answer_of_call hcall
  | error e =>
      rw [hreply] at hcall
      rw [next_of_error hreply]
      exact answer_of_refused hcall

/-- All calls are answered. -/
theorem session_builds (hE : BoundStore.Edits Fine after) (calls : List (BuildCall α)) :
    ∀ {t : Traced (Solver β α)}, t.state.Editable Fine → ∃ as u, as.length = calls.length ∧
      session (calls.map .build) t = .ok as u ∧ u.state.Editable Fine := by
  induction calls with
  | nil => exact fun h => ⟨[], _, rfl, rfl, h⟩
  | cons c rest ih =>
      intro t h
      rcases ih (h.next hE c) with ⟨as, u, hlength, hsession, hu⟩
      have hfirst : session [.build c] t = .ok [(c.reply t.state).map fun _ => .done]
          (c.next after t) := by
        rw [session, List.mapM_cons, bind_ok (answer_build hE h c)]
        rfl
      exact ⟨_, u, congrArg (· + 1) hlength, session_append hfirst hsession, hu⟩

/-- Two calls that have nothing to do with each other, in either order. -/
theorem session_pair (hE : BoundStore.Edits Fine after) (h : t.state.Editable Fine)
    (hapart : c.Apart c') : ∃ a a' u, session [.build c, .build c'] t = .ok [a, a'] u ∧
      session [.build c', .build c] t = .ok [a', a] u ∧ u.state.Editable Fine := by
  have hpair : ∀ c c' : BuildCall α, session [.build c, .build c'] t
      = .ok [(c.reply t.state).map fun _ => .done,
          (c'.reply (c.next after t).state).map fun _ => .done]
        (c'.next after (c.next after t)) := by
    intro c c'
    rw [session, List.mapM_cons, bind_ok (answer_build hE h c), List.mapM_cons, bind_assoc,
      bind_ok (answer_build hE (h.next hE c) c')]
    rfl
  refine ⟨_, _, _, hpair c c', ?_, (h.next hE c).next hE c'⟩
  rw [hpair c' c, reply_next hE hapart, reply_next hE hapart.symm, next_comm hE hapart h]

/-- They can be exchanged in any sequence of calls. What comes before leads to some solver
    that is still built, and what comes after sees the same solver in both cases. -/
theorem session_swap (hE : BoundStore.Edits Fine after) (h : t.state.Editable Fine)
    (hapart : c.Apart c') (before rest : List (BuildCall α)) :
    ∃ as a a' bs u, as.length = before.length ∧
      session ((before ++ c :: c' :: rest).map .build) t = .ok (as ++ a :: a' :: bs) u ∧
      session ((before ++ c' :: c :: rest).map .build) t = .ok (as ++ a' :: a :: bs) u := by
  rcases session_builds hE before h with ⟨as, v, hlength, hbefore, hv⟩
  rcases session_pair hE hv hapart with ⟨a, a', w, hpair, hpair', hw⟩
  rcases session_builds hE rest hw with ⟨bs, u, -, hrest, -⟩
  refine ⟨as, a, a', bs, u, hlength, ?_, ?_⟩
  · rw [List.map_append]
    exact session_append hbefore (session_append hpair hrest)
  · rw [List.map_append]
    exact session_append hbefore (session_append hpair' hrest)

/-! ### Solvers that are still built -/

/-- What can be said of the calls to a solver that is still built, after a session with
    these answers. It is stated of every such session, so the calls that come before the two
    that are exchanged may be any, also failing ones. -/
structure Orderly (ops : List (Operation α)) (answers : List (Except Error (Answer α)))
    (u : Traced (Solver β α)) : Prop where
  /-- A call in which something is wrong has no effect at all. -/
  refused : ∀ c e, c.fault? u.state = some e → call c u = .error (.error e) u
  /-- Any other call is carried out. -/
  done : ∀ c, c.fault? u.state = none → ∃ v, call c u = .ok () v
  /-- Two calls that come one after the other in a sequence can be exchanged. -/
  swapped : ∀ (c c' : BuildCall α) (before rest : List (BuildCall α)), c.Apart c' →
    ∃ as a a' bs v, as.length = before.length ∧
      session ((before ++ c :: c' :: rest).map .build) u = .ok (as ++ a :: a' :: bs) v ∧
      session ((before ++ c' :: c :: rest).map .build) u = .ok (as ++ a' :: a :: bs) v
  /-- The rows of the tableau are the ones that were accepted. -/
  rows : u.state.workspace.tableau.Holds (accepted ops answers)

/-- What is wrong with a call is what it is answered. -/
theorem reply_eq {s : Solver β α} {rows : List (Array α)} (hrows : s.workspace.tableau.Holds rows)
    (hvars : BoundStore.numVars s.workspace.engine = s.numVars) (c : BuildCall α) :
    c.reply s = match c.fault? s with
      | some e => .error e
      | none => .ok () := by
  cases c with
  | constraint coeffs =>
      rw [BuildCall.reply, BuildCall.fault?, numCols, maxRows, numRows]
      -- The width is tested before the capacity, so a row that is wrong in both ways is refused
      -- for its width.
      by_cases hsize : coeffs.size = s.workspace.tableau.numCols
      · by_cases hfull : s.workspace.tableau.maxRows ≤ s.workspace.tableau.numRows
        · rw [Tableau.addRow, if_neg (not_not.mpr hsize), if_pos hfull,
            if_neg (not_not.mpr hsize), if_pos hfull]
          rfl
        · rw [hrows.numRows] at hfull
          rcases hrows.addRow ⟨hsize, Nat.lt_of_not_le hfull⟩ with ⟨u, hadd, -⟩
          rw [hadd, hrows.numRows, if_neg (not_not.mpr hsize), if_neg hfull]
          rfl
      · rw [Tableau.addRow, if_pos hsize, if_pos hsize]
        rfl
  | bounds v e =>
      rw [BuildCall.reply, BuildCall.fault?, hvars, Error.checkIndex]
      split <;> rfl

/-- A solver whose engine changes bounds in this way is such a solver. -/
theorem orderly {ops : List (Operation α)} {answers : List (Except Error (Answer α))}
    (hE : BoundStore.Edits Fine after) (h : u.state.Editable Fine)
    (hrows : u.state.workspace.tableau.Holds (accepted ops answers))
    (hvars : BoundStore.numVars u.state.workspace.engine = u.state.numVars) :
    Orderly ops answers u where
  refused c e hfault := by
    have hcall := call_eq hE h c
    rw [reply_eq hrows hvars, hfault] at hcall
    exact hcall
  done c hfault := by
    have hcall := call_eq hE h c
    rw [reply_eq hrows hvars, hfault] at hcall
    exact ⟨_, hcall⟩
  swapped _ _ before rest hapart := session_swap hE h hapart before rest
  rows := hrows

end Order

/-- A solver at the end of a session that is still built is ready for its problem. -/
theorem ready_of_session [StrictScalar α] {R : Engine.Reading β α} {maxRows numCols : Nat}
    {c : Config α} {ops : List (Operation α)} {answers : List (Except Error (Answer α))}
    (h : Stage R R maxRows numCols c t.state t.state) (hrun : session ops t = .ok answers u)
    (hphase : u.state.phase = .building) :
    ∃ p : Problem α, R.Ready u.state.workspace (p.board c.tolerance) := by
  rcases session_stage ops h with ⟨e, hcut, -⟩ | ⟨as, v, hok, -, hstage⟩
  · rw [hrun] at hcut
    cases hcut
  · cases hrun.symm.trans hok
    cases hstage with
    | building _ _ _ _ htwins => exact ⟨_, htwins.left⟩
    | finished _ hne hsearched =>
        rcases hsearched with ⟨-, htwins, -, -⟩
        exact absurd (htwins.phases.1.symm.trans hphase) hne

end Solver

/-! ### Both engines -/

section Made

variable {maxRows numCols : Nat} {config : Config Binary32} {ops : List (Operation Binary32)}
  {answers : List (Except Error (Answer Binary32))}

/-- Setting bounds is a change of the tables of the process. -/
theorem Sequential.edits {α : Type} [Scalar α] : BoundStore.Edits (σ := Sequential α)
    (fun _ => True) fun v e s => { s with bounds := Bounds.Table.edited v e s.bounds } :=
  Bounds.Table.edits.ofPart bounds (fun t (s : Sequential α) => { s with bounds := t })
    (fun _ _ _ => rfl) (fun _ _ _ => rfl) fun _ => rfl

theorem Sequential.orderly_of_made {t u : Traced (Solver (Sequential Binary32) Binary32)}
    (hmade : Made maxRows numCols config t) (hrun : Solver.session ops t = .ok answers u)
    (hphase : u.state.phase = .building) : Solver.Orderly ops answers u := by
  have hstage := (stage_of_made hmade).2
  rcases hmade with ⟨x, s, y, j, hmake, rfl⟩
  rcases Solver.fresh_of_sequential hmake with ⟨-, rfl⟩
  have hrows := Solver.session_holds rereads (fun _ _ => congrArg Workspace.tableau) rfl hrun
    hphase (Tableau.holds_empty maxRows numCols)
  rcases Solver.ready_of_session hstage hrun hphase with ⟨p, hready⟩
  refine Solver.orderly edits ⟨hphase, trivial⟩ hrows ?_
  have hdesc := hready.tableau
  show u.state.workspace.engine.bounds.entries.size
    = u.state.workspace.tableau.numCols + u.state.workspace.tableau.maxRows
  rw [hready.bounds.size, hdesc.numCols, hdesc.maxRows]
  rfl

/-- A buffer of the store as one of the engine. -/
def Bounds.Resident.Part.slot : Part → Slot
  | .lower => .lower
  | .upper => .upper
  | .bounded => .bounded
  | .values => .values
  | .flags => .flags

theorem Bounds.Resident.Part.slot_inj {s t : Part} (h : s.slot = t.slot) : s = t := by
  cases s <;> cases t <;> first | rfl | cases h

namespace Parallel

theorem slot_part (p : Parallel) (s : Bounds.Resident.Part) : p.slot s.slot = p.bounds.part s := by
  cases s <;> rfl

/-- The buffers for the variables are on the device, and it refuses nothing. -/
def Serves (a : Attached Parallel) : Prop := Bounds.Resident.Served ⟨a.handle.bounds, a.device⟩

/-- Setting bounds is a change of the device. -/
theorem edits : BoundStore.Edits Serves fun v e a =>
    { a with device := a.device.edited a.handle.bounds v e } :=
  Bounds.Resident.edits.ofPart (fun a : Attached Parallel => ⟨a.handle.bounds, a.device⟩)
    (fun r (a : Attached Parallel) => { a with device := r.device }) (fun _ _ _ => rfl)
    (fun _ _ _ => rfl) fun _ => rfl

/-- A device that is ready for a board holds the buffers. -/
theorem Ready.serves {width : Nat} {w : Desk} {b : Board Binary32} (h : Ready width w b) :
    Serves w.engine := by
  rcases h.holds with ⟨a, c, hs, -⟩
  -- The four buffers of the bounds all have one element per variable.
  have hlength : ∀ s : Bounds.Resident.Part,
        (w.engine.handle.bounds.part s).length = b.numVars := by
    intro s
    rw [← slot_part, h.fits.elements, Board.numVars, Nat.add_comm]
    cases s <;> rfl
  refine ⟨⟨fun s => (hlength s).trans h.fits.boundVars.symm, fun s v hv => ?_, fun s t heq => ?_⟩,
    hs.refuse⟩
  -- A variable that is in range has a word in each of them.
  · have hlt : v < (c s.slot).size := by
      have hle := hs.length s.slot
      rw [slot_part, hlength, ← h.fits.boundVars] at hle
      exact Nat.lt_of_lt_of_le hv hle
    refine ⟨(c s.slot)[v], Memory.word?_eq_some.mpr ⟨c s.slot, ?_, Array.getElem?_eq_getElem hlt⟩⟩
    exact slot_part w.engine.handle s ▸ hs.words s.slot
  -- Two parts with one buffer are one part, since the layout gives every slot its own.
  · rw [← slot_part, ← slot_part] at heq
    exact Bounds.Resident.Part.slot_inj (hs.inj _ _ heq)

theorem orderly_of_made {t u : Traced (Solver (Attached Parallel) Binary32)}
    (hmade : Made maxRows numCols config t) (hrun : Solver.session ops t = .ok answers u)
    (hphase : u.state.phase = .building) : Solver.Orderly ops answers u := by
  rcases (stage_of_made hmade).2 with ⟨width, hstage⟩
  rcases hmade with ⟨host, j, s, y, j', hmake, rfl⟩
  rcases fresh_of_parallel hmake with ⟨-, -, -, engine, rfl⟩
  have htableau : ∀ w w' : Desk, w.settled = w'.settled → w.tableau = w'.tableau := by
    intro w w' hcore
    have hsame := congrArg Workspace.tableau hcore
    exact hsame
  have hrows := Solver.session_holds rereads htableau rfl hrun hphase
    (Tableau.holds_empty maxRows numCols)
  rcases Solver.ready_of_session hstage hrun hphase with ⟨p, hready⟩
  refine Solver.orderly edits ⟨hphase, hready.serves⟩ hrows ?_
  have hdesc := hready.tableau
  show u.state.workspace.engine.handle.bounds.numVars
    = u.state.workspace.tableau.numCols + u.state.workspace.tableau.maxRows
  rw [hready.fits.boundVars, hdesc.numCols, hdesc.maxRows]
  rfl

end Parallel

/-- Building calls to solvers on both engines. A call in which something is wrong has no
    effect, two calls that do not both add a constraint and do not both set the same bound
    can be exchanged, and the tableau has the rows that were accepted. Two constraints do
    not commute, as each of them takes the next row. -/
theorem calls_orderly (maxRows numCols : Nat) (config : Config Binary32)
    (ops : List (Operation Binary32)) (answers : List (Except Error (Answer Binary32))) :
    (∀ t u, Sequential.Made maxRows numCols config t → Solver.session ops t = .ok answers u →
      u.state.phase = .building → Solver.Orderly ops answers u) ∧
    ∀ t u, Parallel.Made maxRows numCols config t → Solver.session ops t = .ok answers u →
      u.state.phase = .building → Solver.Orderly ops answers u :=
  ⟨fun _ _ => Sequential.orderly_of_made, fun _ _ => Parallel.orderly_of_made⟩

end Made

/-- A session in which a constraint is accepted, and two calls are refused: a constraint
    with one coefficient, and a bound of a variable that does not exist. -/
def mixedSession : List (Operation Binary32) :=
  [.build (.constraint #[⟨0x3f800000⟩, ⟨0x40000000⟩]), .build (.constraint #[⟨0x3f800000⟩]),
    .build (.bounds 0 (.lower none)), .build (.bounds 9 (.upper none)), .assignment 0]

/-- After that session one row is there on both engines, and the two bounds of one
    variable can be set in either order. -/
theorem calls_orderly_mixed :
    BuildCall.Apart (.bounds 0 (.lower (some (⟨0⟩ : Binary32)))) (.bounds 0 (.upper none)) ∧
    (∃ answers t u, Sequential.Made 1 2 Config.standard t ∧
      Solver.session mixedSession t = .ok answers u ∧ u.state.phase = .building ∧
      Solver.accepted mixedSession answers = [#[⟨0x3f800000⟩, ⟨0x40000000⟩]] ∧
      Solver.Orderly mixedSession answers u) ∧
    ∃ answers t u, Parallel.Made 1 2 Config.standard t ∧
      Solver.session mixedSession t = .ok answers u ∧ u.state.phase = .building ∧
      Solver.accepted mixedSession answers = [#[⟨0x3f800000⟩, ⟨0x40000000⟩]] ∧
      Solver.Orderly mixedSession answers u := by
  refine ⟨fun _ => ⟨fun h => h.2, fun h => h.1⟩, ?_, ?_⟩
  -- The session is evaluated once to have a solver that really was built; its order is then read
  -- off the theorem.
  · have hrun : Exec.endsWith (Solver.sequential 1 2 Config.standard (⟨(), #[]⟩ : Traced Unit))
        (fun s _ => Exec.endsWith (Solver.session mixedSession ⟨s, #[]⟩) fun answers v =>
          decide (v.state.phase = .building ∧
            Solver.accepted mixedSession answers = [#[⟨0x3f800000⟩, ⟨0x40000000⟩]])) = true := by
      decide +kernel
    rcases Exec.exists_of_endsWith hrun with ⟨s, y, hmake, hrest⟩
    rcases Exec.exists_of_endsWith hrest with ⟨answers, u, hsession, htest⟩
    rcases of_decide_eq_true htest with ⟨hphase, hrows⟩
    have hmade : Sequential.Made 1 2 Config.standard ⟨s, #[]⟩ := ⟨_, s, y, #[], hmake, rfl⟩
    exact ⟨answers, _, u, hmade, hsession, hphase, hrows,
      (calls_orderly 1 2 Config.standard mixedSession answers).1 _ u hmade hsession hphase⟩
  · have hrun : Exec.endsWith (Solver.parallel 1 2 Config.standard ⟨.toHost (.idle ⟨4, 1⟩), #[]⟩)
        (fun s y => Exec.endsWith (Solver.session mixedSession ⟨s.attach y.state, #[]⟩)
          fun answers v => decide (v.state.phase = .building ∧
            Solver.accepted mixedSession answers = [#[⟨0x3f800000⟩, ⟨0x40000000⟩]])) = true := by
      decide +kernel
    rcases Exec.exists_of_endsWith hrun with ⟨s, y, hmake, hrest⟩
    rcases Exec.exists_of_endsWith hrest with ⟨answers, u, hsession, htest⟩
    rcases of_decide_eq_true htest with ⟨hphase, hrows⟩
    have hmade : Parallel.Made 1 2 Config.standard ⟨s.attach y.state, #[]⟩ :=
      ⟨_, _, s, y, #[], hmake, rfl⟩
    exact ⟨answers, _, u, hmade, hsession, hphase, hrows,
      (calls_orderly 1 2 Config.standard mixedSession answers).2 _ u hmade hsession hphase⟩

end BoundedSimplex
