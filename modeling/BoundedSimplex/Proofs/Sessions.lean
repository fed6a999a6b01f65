import BoundedSimplex.Proofs.Questions

/-!
# Sessions

Everything a caller does with a solver, one operation after the other.

A caller builds, searches and asks, in any order and as often as he likes, and
goes on after an error. What he gets to see is the list of the answers. A
session is such a list of operations, and two solvers cannot be told apart if
every session has the same answers on both.

Between two operations a solver is at one of two stages. It describes a problem
and has not searched, or it stands at a board of its search and is finished. A
search leads from the first stage to the second, changes of the system stay at
the first and are refused at the second, and questions are answered at both. So
one proof by induction on the operations, with one case for each, says of two
engines that they answer alike and of either one what it may answer. An error
has its reason in the operation, `Refusal`. That there are no others means that
no engine fails on the way.

A session is over when a search does not end, which shows as a search that
used up its fuel, or when an engine repeats a sum for ever.

## Main definitions

* `Operation`, `Answer`, `Solver.perform`: What a caller can do and is told.
* `Solver.session`: Operations with their answers, errors included.
* `Solver.Visits`: The moments between two iterations of the searches.
* `Refusal`, `Regular`: The errors that an operation can be answered with.
* `Solver.Stage`: Where two solvers are between two operations.

## Theorems

* `Solver.perform_alike`: One operation on both engines.
* `Solver.session_alike`: A session on both engines.
-/

namespace BoundedSimplex

/-- What a caller can do with a solver. -/
inductive Operation (α : Type) where
  | build (call : BuildCall α)
  | observe (on : Bool)
  | takeNotices
  | solve (fuel : Nat)
  | assignment (var : Nat)
  | solution
  | role (var : Nat)
  | entry (row col : Nat)
  | render
  | account

/-- What a solver tells of itself without its engine. None of these questions can fail. -/
structure Account (α : Type) where
  numRows : Nat
  maxRows : Nat
  numCols : Nat
  numVars : Nat
  config : Config α
  phase : Phase
  verdict? : Option Bool
  history : Array PivotStep
  basis : Basis

/-- What a caller is told. -/
inductive Answer (α : Type) where
  | done
  | notices (all : Array Notice)
  | verdict (sat : Bool)
  | value (x : α)
  | values (xs : Array α)
  | role (r : Role)
  | text (s : String)
  | account (a : Account α)

namespace Solver

variable {β α : Type}

def account (s : Solver β α) : Account α where
  numRows := s.numRows
  maxRows := s.maxRows
  numCols := s.numCols
  numVars := s.numVars
  config := s.config
  phase := s.phase
  verdict? := s.verdict?
  history := s.history
  basis := s.basis

variable [Scalar α] [Engine β α]

/-- Carry out an operation. -/
def perform : Operation α → Exec (Solver β α) (Answer α)
  | .build c => do
    call c
    pure .done
  | .observe on => do
    observe on
    pure .done
  | .takeNotices => do
    let all ← takeNotices
    pure (.notices all)
  | .solve fuel => do
    let sat ← solve fuel
    pure (.verdict sat)
  | .assignment var => do
    let x ← assignment var
    pure (.value x)
  | .solution => do
    let xs ← solution
    pure (.values xs)
  | .role var => do
    let r ← role var
    pure (.role r)
  | .entry row col => do
    let x ← entry row col
    pure (.value x)
  | .render => do
    let s ← render
    pure (.text s)
  | .account => do
    let a ← Exec.view account
    pure (.account a)

/-- Carry out an operation. An error is an answer too. -/
def answer (o : Operation α) : Exec (Solver β α) (Except Error (Answer α)) :=
  Exec.onError (do
    let a ← perform o
    pure (.ok a)) fun e => pure (.error e)

/-- Carry out operations, one after the other. An error is an answer and the session goes
    on; any other stop ends it. -/
def session (ops : List (Operation α)) : Exec (Solver β α) (List (Except Error (Answer α))) :=
  ops.mapM answer

/-- An operation is answered if it ends, with a result or with an error. -/
theorem perform_of_answer {o : Operation α} {a : Except Error (Answer α)}
    {t u : Traced (Solver β α)} (h : answer o t = .ok a u) :
    (∃ x, perform o t = .ok x u) ∨ ∃ e, perform o t = .error (.error e) u := by
  unfold answer Exec.onError at h
  cases hrun : perform o t with
  | ok x v =>
      rw [Exec.bind_ok hrun] at h
      cases h
      exact .inl ⟨x, rfl⟩
  | error e v =>
      rw [Exec.bind_error hrun] at h
      cases e <;> cases h
      exact .inr ⟨_, rfl⟩

theorem final_of_answer {o : Operation α} {a : Except Error (Answer α)}
    {t u : Traced (Solver β α)} (h : answer o t = .ok a u) : Exec.final (perform o t) = u := by
  rcases perform_of_answer h with ⟨x, hrun⟩ | ⟨e, hrun⟩
  · rw [hrun]
    rfl
  · rw [hrun]
    rfl

theorem final_perform_build (c : BuildCall α) (t : Traced (Solver β α)) :
    Exec.final ((perform (.build c) : Exec (Solver β α) (Answer α)) t) = Exec.final (call c t) := by
  rw [perform]
  cases hrun : call c t with
  | ok x u =>
      rw [Exec.bind_ok hrun]
      rfl
  | error e u =>
      rw [Exec.bind_error hrun]
      rfl

/-- A session begins with its first operation. -/
theorem session_cons {o : Operation α} {rest : List (Operation α)} {t v : Traced (Solver β α)}
    {answers : List (Except Error (Answer α))} (h : session (o :: rest) t = .ok answers v) :
    ∃ a u as, answer o t = .ok a u ∧ session rest u = .ok as v ∧ answers = a :: as := by
  rw [session, List.mapM_cons] at h
  rcases Exec.bind_eq_ok h with ⟨a, u, hanswer, hrest⟩
  rcases Exec.bind_eq_ok hrest with ⟨as, w, hsession, hpure⟩
  cases hpure
  exact ⟨a, u, as, hanswer, hsession, rfl⟩

/-- The moments between two iterations of the searches of a session, each with
    the number of exchanges of its search before it. -/
inductive Visits : List (Operation α) → Traced (Solver β α) → Nat → Traced (Solver β α) → Prop where
  | here {fuel n : Nat} {rest : List (Operation α)} {t v : Traced (Solver β α)} :
      n ≤ fuel → Reaches t n v → Visits (.solve fuel :: rest) t n v
  | later {o : Operation α} {rest : List (Operation α)} {a : Except Error (Answer α)} {n : Nat}
      {t u v : Traced (Solver β α)} : answer o t = .ok a u → Visits rest u n v →
      Visits (o :: rest) t n v

end Solver

/-! ### What may be answered -/

/-- The errors that have their reason in the operation, for a limit on the iterations.
    Errors of a device are not among them. -/
inductive Refusal {α : Type} (limit : Option Nat) : Operation α → Error → Prop where
  | width {coeffs : Array α} {expected : Nat} : coeffs.size ≠ expected →
      Refusal limit (.build (.constraint coeffs)) (.constraintWidth expected coeffs.size)
  | capacity {coeffs : Array α} {capacity : Nat} :
      Refusal limit (.build (.constraint coeffs)) (.capacityExceeded capacity)
  | bounds {v size : Nat} {e : BoundEdit α} : size ≤ v →
      Refusal limit (.build (.bounds v e)) (.indexOutOfBounds v size)
  | frozen {c : BuildCall α} {phase : Phase} : phase ≠ .building →
      Refusal limit (.build c) (.solverFinished phase)
  | limit {fuel n : Nat} : limit = some n → Refusal limit (.solve fuel) (.iterationLimit n)
  | aborted {fuel : Nat} : Refusal limit (.solve fuel) (.solverFinished .aborted)
  | assignment {v size : Nat} : size ≤ v →
      Refusal limit (.assignment v) (.indexOutOfBounds v size)
  | role {v size : Nat} : size ≤ v → Refusal limit (.role v) (.indexOutOfBounds v size)
  | row {r c size : Nat} : size ≤ r → Refusal limit (.entry r c) (.indexOutOfBounds r size)
  | col {r c size : Nat} : size ≤ c → Refusal limit (.entry r c) (.indexOutOfBounds c size)

/-- The answers of a solver in which nothing fails: a search has a verdict, a question its
    answer, and what is refused is refused for a reason in the operation. -/
inductive Regular {α : Type} (limit : Option Nat) :
    Operation α → Except Error (Answer α) → Prop where
  | verdict {fuel : Nat} {sat : Bool} : Regular limit (.solve fuel) (.ok (.verdict sat))
  | given {o : Operation α} {a : Answer α} : (∀ fuel, o ≠ .solve fuel) → Regular limit o (.ok a)
  | refused {o : Operation α} {e : Error} : Refusal limit o e → Regular limit o (.error e)

/-- A row is refused for its width or for want of room. -/
theorem Tableau.refusal_of_addRow {α : Type} {t : Tableau α} {coeffs : Array α} {e : Error}
    (limit : Option Nat) (h : t.addRow coeffs = .error e) :
    Refusal limit (.build (.constraint coeffs)) e := by
  unfold Tableau.addRow at h
  split at h
  · rename_i hsize
    cases h
    exact .width hsize
  · split at h
    · cases h
      exact .capacity
    · split at h
      · cases h
      · cases h
        exact .capacity

/-- A problem of so many rows and columns, with room for its constraints. -/
structure Problem.HasSize {α : Type} (p : Problem α) (maxRows numCols : Nat) : Prop where
  maxRows : p.maxRows = maxRows
  numCols : p.numCols = numCols
  rows : p.rows.length ≤ p.maxRows

theorem Problem.HasSize.call {α : Type} {p : Problem α} {maxRows numCols : Nat}
    (h : p.HasSize maxRows numCols) (c : BuildCall α) : (p.call c).HasSize maxRows numCols :=
  ⟨(p.dimensions_call c).1.trans h.maxRows, (p.dimensions_call c).2.trans h.numCols,
    length_rows_call h.rows c⟩

/-- How a session is cut off: a search has used up its fuel, or something keeps the engine
    from summing rows. Neither is an answer, and there is no solver afterwards. -/
inductive Cut {β α : Type} [Scalar α] [Engine β α] (R : Engine.Reading β α) (numCols : Nat) :
    Stop → Prop where
  | fuel : Cut R numCols .outOfFuel
  | stuck {o : Obstacle} {e : Stop} : R.obstacle numCols = some o → e = o.stop → Cut R numCols e

namespace Solver

open Board Exec

variable {β β' α : Type} [Engine β α] [Engine β' α]

/-- Both give the same account of themselves. -/
theorem Twins.account_eq {Show : Workspace β α → Board α → Prop}
    {Show' : Workspace β' α → Board α → Prop} {b : Board α} {f : Face α} {s : Solver β α}
    {s' : Solver β' α} (hR : Engine.Reports Show) (hR' : Engine.Reports Show')
    (h : Twins (Show · b) (Show' · b) f s s') : s'.account = s.account := by
  have hsized := hR.sized _ _ h.left
  have hsized' := hR'.sized _ _ h.right
  have hphase := h.phases.2.trans h.phases.1.symm
  have hconfig := h.configs.2.trans h.configs.1.symm
  have hhistory := h.histories.2.trans h.histories.1.symm
  simp only [account, numRows, maxRows, numCols, numVars, verdict?, basis, hsized.numRows,
    hsized.maxRows, hsized.numCols, hsized'.numRows, hsized'.maxRows, hsized'.numCols,
    hR.basis _ _ h.left, hR'.basis _ _ h.right, hphase, hconfig, hhistory]

variable [Scalar α]

/-- Two solvers between two operations: they describe a problem and have not searched, or
    they stand at a board of their search. The engines may be of different kinds; what they
    share is the face the solvers show and the board. -/
inductive Stage (R : Engine.Reading β α) (R' : Engine.Reading β' α) (maxRows numCols : Nat)
    (c : Config α) (s : Solver β α) (s' : Solver β' α) : Prop where
  | building {p : Problem α} {f : Face α} : p.HasSize maxRows numCols → f.phase = .building →
      f.config = c → f.history = #[] →
      Twins (R.Ready · (p.board c.tolerance)) (R'.Ready · (p.board c.tolerance)) f s s' →
      Stage R R' maxRows numCols c s s'
  | finished {p : Problem α} {f : Face α} : p.HasSize maxRows numCols → f.phase ≠ .building →
      Searched R R' (p.board c.tolerance) c f s s' → Stage R R' maxRows numCols c s s'

/-- How an operation stops on both engines: it is refused, or the session is
    cut off. -/
inductive Interrupted (R : Engine.Reading β α) (R' : Engine.Reading β' α) (maxRows numCols : Nat)
    (c : Config α) (o : Operation α) : Stop → Solver β α → Solver β' α → Prop where
  | refused {e : Error} {s : Solver β α} {s' : Solver β' α} : Refusal c.maxIterations o e →
      Stage R R' maxRows numCols c s s' → Interrupted R R' maxRows numCols c o (.error e) s s'
  | cut {e : Stop} {s : Solver β α} {s' : Solver β' α} : Cut R numCols e →
      Interrupted R R' maxRows numCols c o e s s'

section Stages

variable {R : Engine.Reading β α} {R' : Engine.Reading β' α} {maxRows numCols : Nat}
  {c : Config α} {t : Traced (Solver β α)} {t' : Traced (Solver β' α)}

/-- At either stage both solvers can be asked, and what changes neither the
    board nor the course of the search does not change the stage. -/
theorem Stage.asked [StrictScalar α] {s : Solver β α} {s' : Solver β' α}
    (h : Stage R R' maxRows numCols c s s') :
    ∃ (Show : Workspace β α → Board α → Prop) (Show' : Workspace β' α → Board α → Prop)
      (b : Board α) (f : Face α), Engine.Reports Show ∧ Engine.Reports Show' ∧ b.Valid ∧
      Twins (Show · b) (Show' · b) f s s' ∧
      ∀ g u u', g.config = f.config → g.phase = f.phase → g.history = f.history →
        Twins (Show · b) (Show' · b) g u u' → Stage R R' maxRows numCols c u u' := by
  cases h with
  | @building p f hp hphase hconfig hhistory htwins =>
      refine ⟨R.Ready, R'.Ready, _, f, R.reportsReady, R'.reportsReady,
        Problem.valid_board hp.rows _, htwins, fun g u u' hc hph hh hg => ?_⟩
      exact .building hp (hph.trans hphase) (hc.trans hconfig) (hh.trans hhistory) hg
  | @finished p f hp hphase hsearched =>
      rcases hsearched with ⟨hrun, htwins, hconfig, hhistory⟩
      refine ⟨R.Shows, R'.Shows, _, f, R.reportsShows, R'.reportsShows,
        hrun.valid (Problem.valid_board hp.rows _), htwins, fun g u u' hc hph hh hg => ?_⟩
      exact .finished hp (by rw [hph]; exact hphase)
        (.at hrun hg (hc.trans hconfig) (hh.trans hhistory))

/-- Both take the row of a constraint, or both refuse it. -/
theorem Twins.addRow {p : Problem α} {f : Face α} (hp : p.HasSize maxRows numCols)
    (hphase : f.phase = .building) (hconfig : f.config = c) (hhistory : f.history = #[])
    (h : Twins (R.Ready · (p.board c.tolerance)) (R'.Ready · (p.board c.tolerance)) f t.state
      t'.state) (coeffs : Array α) :
    Alike (fun _ => Stage R R' maxRows numCols c)
      (Interrupted R R' maxRows numCols c (.build (.constraint coeffs)))
      (addConstraint coeffs t) (addConstraint coeffs t') := by
  refine (h.ensureBuilding fun s s' hne _ => absurd hphase hne).bind ?_
  rintro _ u u' - ⟨-, hu⟩
  have hsame : u'.state.workspace.tableau = u.state.workspace.tableau :=
    (R'.builds.describes _ _ hu.right).unique (R.builds.describes _ _ hu.left)
  have hright := addRow_cases R'.builds hu.right coeffs
  refine Alike.state ?_
  rw [hsame] at hright ⊢
  rcases addRow_cases R.builds hu.left coeffs with ⟨x, hadd, hx⟩ | ⟨e, hadd, -⟩
  · rcases hright with ⟨x', hadd', hx'⟩ | ⟨e, hadd', -⟩
    · rw [hadd] at hadd'
      cases hadd'
      refine (Alike.check (R := fun r s s' => r = (p.rows.length, x) ∧ s = u.state ∧
        s' = u'.state) ?_ ?_).bind ?_
      · intro r hr
        rw [hadd] at hr
        cases hr
        exact ⟨rfl, rfl, rfl⟩
      · intro e he
        rw [hadd] at he
        cases he
      · rintro _ v v' - ⟨rfl, hv, hv'⟩
        refine (Alike.update (R := fun _ => Stage R R' maxRows numCols c) ?_).bind
          fun _ w w' _ hw => Alike.emit hw
        refine .building (hp.call (.constraint coeffs)) hphase hconfig hhistory ⟨?_, ?_, ?_, ?_⟩
        · rw [hv]
          exact hx
        · rw [hv']
          exact hx'
        · rw [hv]
          exact hu.face_left
        · rw [hv']
          exact hu.face_right
    · rw [hadd] at hadd'
      cases hadd'
  · refine (Alike.check (R := fun _ _ _ => False) ?_ ?_).bind fun _ _ _ _ hfalse => hfalse.elim
    · intro r hr
      rw [hadd] at hr
      cases hr
    · intro e' he
      exact .refused (Tableau.refusal_of_addRow _ he) (.building hp hphase hconfig hhistory hu)

/-- Both change the bounds of a variable, or both refuse to. -/
theorem Twins.edit {p : Problem α} {f : Face α} (hp : p.HasSize maxRows numCols)
    (hphase : f.phase = .building) (hconfig : f.config = c) (hhistory : f.history = #[])
    (h : Twins (R.Ready · (p.board c.tolerance)) (R'.Ready · (p.board c.tolerance)) f t.state
      t'.state) (v : Nat) (e : BoundEdit α) :
    Alike (fun _ => Stage R R' maxRows numCols c)
      (Interrupted R R' maxRows numCols c (.build (.bounds v e)))
      (call (.bounds v e) t) (call (.bounds v e) t') := by
  rw [call_bounds_eq, call_bounds_eq]
  refine (h.ensureBuilding fun s s' hne _ => absurd hphase hne).bind ?_
  rintro _ u u' - ⟨-, hu⟩
  have hstage : ∀ {s s'}, Twins (R.Ready · ((p.call (.bounds v e)).board c.tolerance))
      (R'.Ready · ((p.call (.bounds v e)).board c.tolerance)) f s s' →
      Stage R R' maxRows numCols c s s' :=
    fun hs => .building (hp.call (.bounds v e)) hphase hconfig hhistory hs
  refine (hu.onWorkspace_replies (fun w hw => edit_replies R.builds hw v e)
    (fun w hw => edit_replies R'.builds hw v e) ?_).mono (fun _ _ _ hs => hstage hs.2)
    fun _ _ _ he => he
  intro err s s' herr hs
  refine .refused ?_ (hstage hs)
  unfold Error.checkIndex at herr
  by_cases hv : v < p.numVars
  · rw [if_pos hv] at herr
    cases herr
  · rw [if_neg hv] at herr
    cases herr
    exact .bounds (Nat.le_of_not_lt hv)

/-- A call that describes a part of the system. -/
theorem call_alike (h : Stage R R' maxRows numCols c t.state t'.state) (k : BuildCall α) :
    Alike (fun _ => Stage R R' maxRows numCols c)
      (Interrupted R R' maxRows numCols c (.build k)) (call k t) (call k t') := by
  cases h with
  | building hp hphase hconfig hhistory htwins =>
      cases k with
      | constraint coeffs => exact htwins.addRow hp hphase hconfig hhistory coeffs
      | bounds v e => exact htwins.edit hp hphase hconfig hhistory v e
  | @finished p f hp hphase hsearched =>
      rcases hsearched with ⟨hrun, htwins, hconfig, hhistory⟩
      refine (htwins.call_finished hphase k fun s s' hs => ?_).mono
        (fun _ _ _ hfalse => hfalse.elim)
        fun _ _ _ he => he
      exact .refused (.frozen hphase) (.finished hp hphase (.at hrun hs hconfig hhistory))

/-- A finished solver repeats its verdict, or refuses if it has none. -/
theorem solve_finished_alike {p : Problem α} {f : Face α} (hp : p.HasSize maxRows numCols)
    (hphase : f.phase ≠ .building)
    (h : Searched R R' (p.board c.tolerance) c f t.state t'.state) (fuel : Nat) :
    Alike (fun _ => Stage R R' maxRows numCols c)
      (Interrupted R R' maxRows numCols c (.solve fuel)) (solve fuel t) (solve fuel t') := by
  rcases h with ⟨hrun, htwins, hconfig, hhistory⟩
  have hstage : ∀ s s', Twins _ _ f s s' → Stage R R' maxRows numCols c s s' :=
    fun s s' hs => .finished hp hphase (.at hrun hs hconfig hhistory)
  exact (htwins.solve_finished hphase fuel fun s s' hs => .refused .aborted (hstage s s' hs)).mono
    (fun _ _ _ hs => hstage _ _ hs) fun _ _ _ he => he

/-- A search, at either stage. -/
theorem search_alike [StrictScalar α] (hsame : R'.obstacle numCols = R.obstacle numCols)
    (h : Stage R R' maxRows numCols c t.state t'.state) (fuel : Nat)
    (hmatch : ∀ n v, n < fuel → Reaches t (n + 1) v → SumsMatchAt R R' v.state.workspace) :
    Alike (fun _ => Stage R R' maxRows numCols c)
      (Interrupted R R' maxRows numCols c (.solve fuel)) (solve fuel t) (solve fuel t') := by
  cases h with
  | finished hp hphase hsearched => exact solve_finished_alike hp hphase hsearched fuel
  | @building p f hp hphase hconfig hhistory htwins =>
      have hcols : (p.board c.tolerance).numCols = numCols := hp.numCols
      have halike := solve_alike (Problem.valid_board hp.rows _) (by rw [hcols]; exact hsame)
        htwins hphase hhistory fuel hmatch
      rw [hconfig] at halike
      refine halike.mono ?_ ?_
      · rintro sat s s' ⟨g, hg, hsearched⟩
        refine .finished hp ?_ hsearched
        rw [hg]
        cases sat <;> decide
      · intro e s s' he
        cases he with
        | @limit limit g _ _ hmax hg hsearched =>
            refine .refused (.limit hmax) (.finished hp ?_ hsearched)
            rw [hg]
            decide
        | fuel => exact .cut .fuel
        | stuck hstuck he => exact .cut (.stuck (by rw [← hcols]; exact hstuck) he)

/-- One operation on both engines. The sums have to match after every exchange that a search
    makes on the first of them, and this is all that is asked. -/
theorem perform_alike [StrictScalar α] (hsame : R'.obstacle numCols = R.obstacle numCols)
    (h : Stage R R' maxRows numCols c t.state t'.state) (o : Operation α)
    (hmatch : ∀ fuel, o = .solve fuel → ∀ n v, n < fuel → Reaches t (n + 1) v →
      SumsMatchAt R R' v.state.workspace) :
    Alike (fun a s s' => Regular c.maxIterations o (.ok a) ∧ Stage R R' maxRows numCols c s s')
      (Interrupted R R' maxRows numCols c o) (perform o t) (perform o t') := by
  rcases h.asked with ⟨Show, Show', b, f, hR, hR', hv, htwins, hkeep⟩
  have hstays : ∀ {s s'}, Twins (Show · b) (Show' · b) f s s' →
      Stage R R' maxRows numCols c s s' :=
    fun hs => hkeep f _ _ rfl rfl rfl hs
  cases o with
  | build k => exact (call_alike h k).bind fun _ _ _ _ hs => Alike.pure ⟨.given nofun, hs⟩
  | solve fuel =>
      exact (search_alike hsame h fuel (hmatch fuel rfl)).bind
        fun _ _ _ _ hs => Alike.pure ⟨.verdict, hs⟩
  | observe on =>
      refine (Alike.update (R := fun _ => Stage R R' maxRows numCols c) ?_).bind
        fun _ _ _ _ hs => Alike.pure ⟨.given nofun, hs⟩
      refine hkeep { f with observed := on } _ _ rfl rfl rfl ⟨htwins.left, htwins.right, ?_, ?_⟩
      · rw [← htwins.face_left]
        rfl
      · rw [← htwins.face_right]
        rfl
  | takeNotices =>
      have hnotices : t'.state.notices = t.state.notices :=
        (congrArg Face.notices htwins.face_right).trans
          (congrArg Face.notices htwins.face_left).symm
      refine Alike.bind (R := fun _ => Stage R R' maxRows numCols c) (Alike.state ?_)
        fun _ _ _ _ hs => Alike.pure ⟨.given nofun, hs⟩
      rw [hnotices]
      refine (Alike.update (R := fun _ => Stage R R' maxRows numCols c) ?_).bind
        fun _ _ _ _ hs => Alike.pure hs
      refine hkeep { f with notices := #[] } _ _ rfl rfl rfl ⟨htwins.left, htwins.right, ?_, ?_⟩
      · rw [← htwins.face_left]
        rfl
      · rw [← htwins.face_right]
        rfl
  | assignment v =>
      exact (htwins.assignment hR hR' fun _ _ hle hs => .refused (.assignment hle) (hstays hs)).bind
        fun _ _ _ _ hs => Alike.pure ⟨.given nofun, hstays hs.2⟩
  | solution =>
      exact (htwins.solution hR hR').bind
        fun _ _ _ _ hs => Alike.pure ⟨.given nofun, hstays hs.2⟩
  | role v =>
      exact (htwins.role hR hR' fun _ _ hle hs => .refused (.role hle) (hstays hs)).bind
        fun _ _ _ _ hs => Alike.pure ⟨.given nofun, hstays hs.2⟩
  | entry r k =>
      exact (htwins.entry hR hR' (fun _ _ hle hs => .refused (.row hle) (hstays hs))
        fun _ _ hle hs => .refused (.col hle) (hstays hs)).bind
        fun _ _ _ _ hs => Alike.pure ⟨.given nofun, hstays hs.2⟩
  | render =>
      exact (htwins.render hR hR' hv).bind
        fun _ _ _ _ hs => Alike.pure ⟨.given nofun, hstays hs⟩
  | account =>
      refine (htwins.view rfl ?_).bind fun _ _ _ _ hs => Alike.pure ⟨.given nofun, hstays hs.2⟩
      exact htwins.account_eq hR hR'

/-- One operation, with an error as its answer. -/
theorem answer_alike [StrictScalar α] (hsame : R'.obstacle numCols = R.obstacle numCols)
    (h : Stage R R' maxRows numCols c t.state t'.state) (o : Operation α)
    (hmatch : ∀ fuel, o = .solve fuel → ∀ n v, n < fuel → Reaches t (n + 1) v →
      SumsMatchAt R R' v.state.workspace) :
    Alike (fun a s s' => Regular c.maxIterations o a ∧ Stage R R' maxRows numCols c s s')
      (fun e _ _ => Cut R numCols e) (answer o t) (answer o t') := by
  unfold answer
  refine Alike.onError (E := Interrupted R R' maxRows numCols c o)
    ((perform_alike hsame h o hmatch).bind fun _ _ _ _ hs => Alike.pure hs)
    (fun e u u' he => ?_) fun e s s' hne he => ?_
  · cases he with
    | refused hrefusal hs => exact Alike.pure ⟨.refused hrefusal, hs⟩
    | cut hcut =>
        cases hcut with
        | @stuck o _ _ he => exact absurd he.symm (o.stop_ne_error _)
  · cases he with
    | refused => exact absurd rfl (hne _)
    | cut hcut => exact hcut

/-- A session on both engines, as long as the sums match after each iteration
    of its searches. -/
theorem session_alike [StrictScalar α] (hsame : R'.obstacle numCols = R.obstacle numCols)
    (ops : List (Operation α)) :
    ∀ {t : Traced (Solver β α)} {t' : Traced (Solver β' α)},
      Stage R R' maxRows numCols c t.state t'.state →
      (∀ n v, Visits ops t (n + 1) v → SumsMatchAt R R' v.state.workspace) →
      Alike (fun as s s' => List.Forall₂ (Regular c.maxIterations) ops as ∧
          Stage R R' maxRows numCols c s s')
        (fun e _ _ => Cut R numCols e) (session ops t) (session ops t') := by
  induction ops with
  | nil => exact fun h _ => Alike.pure ⟨.nil, h⟩
  | cons o rest ih =>
      intro t t' h hmatch
      unfold session
      simp only [List.mapM_cons]
      have hanswer := answer_alike hsame h o fun fuel ho n v hn hreach =>
        hmatch n v (by rw [ho]; exact .here hn hreach)
      refine hanswer.bind fun a u u' hrun hs => ?_
      have hrest := ih hs.2 fun n v hvisit => hmatch n v (.later hrun hvisit)
      exact hrest.bind fun as w w' _ hw => Alike.pure ⟨.cons hs.1 hw.1, hw.2⟩

end Stages

end Solver

end BoundedSimplex
