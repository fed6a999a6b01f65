import BoundedSimplex.Proofs.Recomputing
import BoundedSimplex.Solver.Run

/-!
# Engines that Follow the Board

What an engine has to do, and what a search on such an engine does.

`Engine.Follows` is the contract. It names a relation between what the engine
works on and a board, and says of each operation which board it shows
afterwards. Two parameters are left to the engine: the sum it takes of a row,
and what keeps it from summing rows of so many items, if anything does. One of
the engines repeats a reduction for ever when a workgroup has a single item, and
counts the items of a launch in a machine word, into which the widest rows do not
fit once they are rounded up to whole workgroups.

From the contract the course of a search follows without looking at the engine
again. The statements are about the outcome, whatever it is: `iterate_cases`
says for each way an iteration can end where the solver then stands, and
`run_ending` and `solve_ending` say the same of whole searches. A search
that stops without a verdict stands at a board of the search as well, unless
it stopped in the middle of a sum.

## Main definitions

* `Obstacle`: What keeps an engine from summing the rows of a board.
* `Engine.Follows`: The contract.
* `Solver.At`: A solver that stands at a board of its search.
* `Solver.stepsOf`: The history that belongs to a list of exchanges.
* `Solver.Reaches`: The moments between two iterations.

## Theorems

* `Solver.iterate_cases`: How an iteration can end.
* `Solver.run_ending`: How a search can end.
* `Solver.solve_ending`: The same for the call that begins it.
* `Solver.Reaches.at_board`: Between two iterations the solver stands at a board of
  the search.
-/

namespace BoundedSimplex

/-- What keeps an engine from summing the rows of a board. Both depend on the number of
    columns only, so an obstacle is there from the start or never. -/
inductive Obstacle where
  /-- There would be no fewer partial sums than before. -/
  | endless
  /-- A row rounded up to whole workgroups does not fit a machine word. -/
  | overflow
deriving DecidableEq

/-- How an operation stops that meets the obstacle. -/
def Obstacle.stop : Obstacle → Stop
  | .endless => .endless
  | .overflow => .overflow

theorem Obstacle.stop_ne_error (o : Obstacle) (e : Error) : o.stop ≠ .error e := by
  cases o <;> exact nofun

theorem Obstacle.stop_ne_outOfRange (o : Obstacle) : o.stop ≠ .outOfRange := by
  cases o <;> decide

/-- What an engine has to do to follow the board, with the sum it takes of a row and
    what keeps it from doing so. `Ready` is how a workspace shows a board before the
    engine was made ready for the search, and `Shows` how it does so afterwards. -/
structure Engine.Follows {β α : Type} [Scalar α] [Engine β α] (sum : Summation α)
    (obstacle : Nat → Option Obstacle) (Ready Shows : Workspace β α → Board α → Prop) : Prop where
  prepare : ∀ (w : Workspace β α) (b : Board α), Ready w b → b.Valid →
    (Engine.prepare : Exec (Workspace β α) Unit).Gives w fun _ w' => Shows w' b
  checkBounds : ∀ (w : Workspace β α) (b : Board α), Shows w b → b.Valid →
    (Engine.checkBounds : Exec (Workspace β α) _).Gives w
      fun r w' => r = b.firstBroken ∧ Shows w' b
  findNone : ∀ (w : Workspace β α) (b : Board α) (leaving : Nat), Shows w b → b.Valid →
    b.firstBroken = some leaving → b.firstSuitable leaving = none →
    (Engine.findSuitable leaving : Exec (Workspace β α) _).Gives w
      fun r w' => r = none ∧ Shows w' b
  findSome : ∀ (w : Workspace β α) (b : Board α) (leaving entering : Nat), Shows w b → b.Valid →
    b.Exchanges leaving entering →
    (Engine.findSuitable leaving : Exec (Workspace β α) _).Gives w
      fun r w' => r = some entering ∧ Shows w' (b.corrected leaving entering)
  pivot : ∀ (w : Workspace β α) (b : Board α) (leaving entering : Nat), b.Valid →
    b.Exchanges leaving entering → Shows w (b.corrected leaving entering) →
    (Engine.pivot leaving entering : Exec (Workspace β α) _).Gives w
      fun _ w' => Shows w' ((b.corrected leaving entering).exchanged leaving entering)
  update : ∀ (w : Workspace β α) (b : Board α), Shows w b → b.Valid →
    obstacle b.numCols = none →
    (Engine.updateAssignment : Exec (Workspace β α) _).Gives w
      fun _ w' => Shows w' (b.recomputed sum)
  updateStuck : ∀ (w : Workspace β α) (b : Board α) (o : Obstacle), Shows w b → b.Valid →
    obstacle b.numCols = some o → 0 < b.numRows →
    (Engine.updateAssignment : Exec (Workspace β α) _).Stops w o.stop fun _ => True

namespace Solver

open Board Exec

variable {β α : Type}

/-- The history that belongs to a list of exchanges: each with its number. Numbers begin at
    zero, and the list has them by position. -/
def stepsOf (l : List (Nat × Nat)) : Array PivotStep :=
  (l.mapIdx fun i p => ⟨i, p.1, p.2⟩).toArray

theorem stepsOf_append (l : List (Nat × Nat)) (leaving entering : Nat) :
    stepsOf (l ++ [(leaving, entering)]) = (stepsOf l).push ⟨l.length, leaving, entering⟩ := by
  simp only [stepsOf, List.mapIdx_concat, List.push_toArray]

/-- Each step of the history is one of the exchanges. -/
theorem mem_of_mem_stepsOf {l : List (Nat × Nat)} {step : PivotStep} (h : step ∈ stepsOf l) :
    (step.leaving, step.entering) ∈ l := by
  rw [stepsOf, List.mem_toArray] at h
  rcases List.mem_mapIdx.mp h with ⟨i, hi, rfl⟩
  exact List.getElem_mem hi

/-- The solver `s` stands at the board `b` of a search that began at `s₀`,
    after the exchanges `l`. -/
structure At (Shows : Workspace β α → Board α → Prop) (s₀ s : Solver β α) (b : Board α)
    (l : List (Nat × Nat)) : Prop where
  shows_board : Shows s.workspace b
  config : s.config = s₀.config
  history : s.history = s₀.history ++ stepsOf l

/-- The limit is not reached after `n` exchanges. -/
def BelowLimit (s : Solver β α) (n : Nat) : Prop :=
  ∀ limit, s.config.maxIterations = some limit → n < limit

section Parts

variable {Shows : Workspace β α → Board α → Prop} {s₀ s : Solver β α} {b : Board α}
  {l : List (Nat × Nat)}

/-- An operation of the engine changes the workspace alone. -/
theorem At.onWorkspace {γ : Type} {act : Exec (Workspace β α) γ} {P : γ → Board α → Prop}
    (hat : At Shows s₀ s b l)
    (h : act.Gives s.workspace fun r w' => ∃ b', P r b' ∧ Shows w' b') :
    (Solver.onWorkspace act).Gives s fun r s' => ∃ b', P r b' ∧ At Shows s₀ s' b' l := by
  refine Exec.Gives.focus (h.mono fun r w' hr => ?_)
  rcases hr with ⟨b', hP, hshows⟩
  exact ⟨b', hP, hshows, hat.config, hat.history⟩

/-- An observer that is told something changes the notices alone. -/
theorem notify_gives (s : Solver β α) (n : Notice) :
    (Solver.notify n : Exec (Solver β α) Unit).Gives s fun _ s' =>
      ∃ notices, s' = { s with notices := notices } := by
  refine Exec.Gives.update ?_
  by_cases hobs : s.observed = true
  · exact ⟨s.notices.push n, by rw [if_pos hobs]⟩
  · exact ⟨s.notices, by rw [if_neg hobs]⟩

theorem At.notify (hat : At Shows s₀ s b l) (n : Notice) :
    (Solver.notify n : Exec (Solver β α) Unit).Gives s fun _ s' => At Shows s₀ s' b l := by
  refine (notify_gives s n).mono ?_
  rintro _ _ ⟨notices, rfl⟩
  exact ⟨hat.shows_board, hat.config, hat.history⟩

theorem At.push (hat : At Shows s₀ s b l) (leaving entering : Nat) :
    At Shows s₀ { s with history := s.history.push ⟨l.length, leaving, entering⟩ } b
      (l ++ [(leaving, entering)]) where
  shows_board := hat.shows_board
  config := hat.config
  history := by rw [stepsOf_append, hat.history, Array.append_push]

theorem checkLimit_gives (hat : At Shows s₀ s b l) {n : Nat} (h : s₀.BelowLimit n) :
    (checkLimit n : Exec (Solver β α) Unit).Gives s fun _ s' => At Shows s₀ s' b l := by
  refine Exec.Yields.state.gives ?_
  cases hmax : s.config.maxIterations with
  | none => exact Exec.Gives.pure hat
  | some limit =>
      have hlt := h limit (by rw [← hat.config]; exact hmax)
      simp only [if_neg (Nat.not_le_of_lt hlt)]
      exact Exec.Gives.pure hat

theorem checkLimit_stops {limit n : Nat} (hat : At Shows s₀ s b l)
    (hmax : s₀.config.maxIterations = some limit) (hle : limit ≤ n) :
    (checkLimit n : Exec (Solver β α) Unit).Stops s (.error (.iterationLimit limit))
      fun s' => At Shows s₀ s' b l := by
  refine Exec.Yields.state.stops ?_
  rw [← hat.config] at hmax
  simp only [hmax, if_pos hle]
  exact Exec.Stops.fail hat

/-- A verdict is recorded in the phase. -/
theorem finish_gives (hat : At Shows s₀ s b l) (sat : Bool) :
    (finish sat : Exec (Solver β α) _).Gives s
      fun r s' => r = sat ∧ s'.phase = .ofVerdict sat ∧ At Shows s₀ s' b l := by
  refine Exec.Yields.state.gives ?_
  refine (Gives.update (P := fun _ s₁ => s₁.phase = .ofVerdict sat ∧ At Shows s₀ s₁ b l)
    ⟨rfl, hat.shows_board, hat.config, hat.history⟩).bind fun _ s₁ h₁ => ?_
  refine Exec.Yields.emit.gives ?_
  refine (notify_gives s₁ _).bind ?_
  rintro _ _ ⟨notices, rfl⟩
  exact Gives.pure ⟨rfl, h₁.1, h₁.2.shows_board, h₁.2.config, h₁.2.history⟩

end Parts

/-! ### The moments between iterations -/

section Opening

variable {β α : Type} [Engine β α]

/-- What comes before the first iteration. -/
def opening : Exec (Solver β α) Unit := do
  let s ← Exec.state
  Exec.emit (.solveStarted s.numRows s.numCols (Engine.name s.workspace.engine))
  onWorkspace Engine.prepare

theorem solve_building {t u : Traced (Solver β α)} {fuel : Nat} (hphase : t.state.phase = .building)
    (hopen : opening t = .ok () u) :
    solve fuel t = Exec.onError (run fuel 0 >>= finish) abort u := by
  rcases bind_eq_ok hopen with ⟨s, t₁, hs, hrest⟩
  cases hs
  rcases bind_eq_ok hrest with ⟨_, t₂, hemit, hprep⟩
  rw [solve, bind_ok (show Exec.state t = .ok t.state t from rfl), hphase]
  simp only []
  rw [bind_ok hemit, onError, bind_ok hprep, onError]

/-- The moments between two iterations of a search, each with the number of
    exchanges before it. -/
inductive Reaches (t : Traced (Solver β α)) : Nat → Traced (Solver β α) → Prop where
  | start {u : Traced (Solver β α)} : t.state.phase = .building → opening t = .ok () u →
      Reaches t 0 u
  | next {n : Nat} {u u' : Traced (Solver β α)} : Reaches t n u → iterate n u = .ok none u' →
      Reaches t (n + 1) u'

/-- From any of these moments on the search only has the rest to do. -/
theorem Reaches.solve_eq {t u : Traced (Solver β α)} {n : Nat} (h : Reaches t n u) :
    ∀ fuel, solve (n + fuel) t = Exec.onError (run fuel n >>= finish) abort u := by
  induction h with
  | start hphase hopen =>
      intro fuel
      rw [Nat.zero_add, solve_building hphase hopen]
  | next _ hit ih =>
      intro fuel
      rw [Nat.add_right_comm, Nat.add_assoc, ih]
      simp only [onError, Bind.bind, EStateM.bind, run, hit]

end Opening

/-! ### One iteration -/

variable [Scalar α] [Engine β α] {sum : Summation α} {obstacle : Nat → Option Obstacle}
  {Ready Shows : Workspace β α → Board α → Prop} {s₀ s : Solver β α} {b b₀ : Board α}
  {l : List (Nat × Nat)}

/-- What comes before the first iteration makes the engine ready. -/
theorem opening_gives (hF : Engine.Follows sum obstacle Ready Shows) (hv₀ : b₀.Valid)
    (hready : Ready s₀.workspace b₀) :
    (opening : Exec (Solver β α) Unit).Gives s₀ fun _ s' => At Shows s₀ s' b₀ [] := by
  refine Exec.Yields.state.gives ?_
  refine Exec.Yields.emit.gives ?_
  refine Gives.focus ((hF.prepare _ b₀ hready hv₀).mono fun _ w' hshows => ?_)
  exact ⟨hshows, rfl, (Array.append_empty).symm⟩

section Iteration

variable (hF : Engine.Follows sum obstacle Ready Shows) (hat : At Shows s₀ s b l) (hv : b.Valid)
include hF hat hv

/-- The scan with which an iteration begins. -/
theorem checkBounds_gives :
    (onWorkspace Engine.checkBounds : Exec (Solver β α) _).Gives s
      fun r s' => r = b.firstBroken ∧ At Shows s₀ s' b l := by
  refine (hat.onWorkspace (P := fun r b' => r = b.firstBroken ∧ b' = b)
    ((hF.checkBounds _ b hat.shows_board hv).mono fun r w' hr => ⟨b, ⟨hr.1, rfl⟩, hr.2⟩)).mono ?_
  rintro r s' ⟨b', ⟨hr, rfl⟩, hat'⟩
  exact ⟨hr, hat'⟩

/-- If no basic variable is broken the system is satisfied. -/
theorem iterate_sat (h : b.firstBroken = none) :
    (iterate l.length : Exec (Solver β α) _).Gives s
      fun r s' => r = some true ∧ At Shows s₀ s' b l := by
  refine (checkBounds_gives hF hat hv).bind ?_
  rintro r s' ⟨rfl, hat'⟩
  rw [h]
  exact Exec.Gives.pure ⟨rfl, hat'⟩

/-- The limit is looked at once a broken variable was found. -/
theorem iterate_limit {leaving limit : Nat} (h : b.firstBroken = some leaving)
    (hmax : s₀.config.maxIterations = some limit) (hle : limit ≤ l.length) :
    (iterate l.length : Exec (Solver β α) _).Stops s (.error (.iterationLimit limit))
      fun s' => At Shows s₀ s' b l := by
  refine Exec.Stops.after (checkBounds_gives hF hat hv) ?_
  rintro r s' ⟨rfl, hat'⟩
  rw [h]
  exact (checkLimit_stops hat' hmax hle).bind

variable (hlim : s₀.BelowLimit l.length)
include hlim

/-- If nothing suits the broken variable the system is not satisfied. -/
theorem iterate_unsat {leaving : Nat} (h : b.firstBroken = some leaving)
    (hs : b.firstSuitable leaving = none) :
    (iterate l.length : Exec (Solver β α) _).Gives s
      fun r s' => r = some false ∧ At Shows s₀ s' b l := by
  refine (checkBounds_gives hF hat hv).bind ?_
  rintro r s₁ ⟨rfl, hat₁⟩
  rw [h]
  refine (checkLimit_gives hat₁ hlim).bind fun _ s₂ hat₂ => ?_
  refine Exec.Yields.emit.gives ?_
  refine (hat₂.notify _).bind fun _ s₃ hat₃ => ?_
  -- Nothing is suitable, so the engine answers with no column and the board is the one from
  -- before.
  refine (hat₃.onWorkspace (P := fun r b' => r = none ∧ b' = b)
    ((hF.findNone _ b leaving hat₃.shows_board hv h hs).mono
      fun r w' hr => ⟨b, ⟨hr.1, rfl⟩, hr.2⟩)).bind ?_
  rintro r s₄ ⟨b', ⟨rfl, rfl⟩, hat₄⟩
  exact Exec.Yields.emit.gives (Exec.Gives.pure ⟨rfl, hat₄⟩)

variable {leaving entering : Nat} (h : b.Exchanges leaving entering)
include h

/-- An iteration that exchanges two variables, up to the recomputation of the
    rows. -/
theorem iterate_leads :
    (iterate l.length : Exec (Solver β α) _).Leads s
      (onWorkspace Engine.updateAssignment >>= fun _ => pure none)
      fun s' => At Shows s₀ s' ((b.corrected leaving entering).exchanged leaving entering)
        (l ++ [(leaving, entering)]) := by
  -- Events and observers leave the board alone; only the three operations change it.
  refine Exec.Leads.after (checkBounds_gives hF hat hv) ?_
  rintro r s₁ ⟨rfl, hat₁⟩
  rw [h.broken]
  refine Exec.Leads.after (checkLimit_gives hat₁ hlim) fun _ s₂ hat₂ => ?_
  refine Exec.Yields.emit.leads ?_
  refine Exec.Leads.after (hat₂.notify _) fun _ s₃ hat₃ => ?_
  refine Exec.Leads.after (hat₃.onWorkspace (P := fun r b' => r = some entering ∧
    b' = b.corrected leaving entering)
    ((hF.findSome _ b leaving entering hat₃.shows_board hv h).mono
      fun r w' hr => ⟨_, ⟨hr.1, rfl⟩, hr.2⟩)) ?_
  rintro r s₄ ⟨_, ⟨rfl, rfl⟩, hat₄⟩
  refine Exec.Leads.after (hat₄.onWorkspace (P := fun _ b' =>
    b' = (b.corrected leaving entering).exchanged leaving entering)
    ((hF.pivot _ b leaving entering hv h hat₄.shows_board).mono fun r w' hr => ⟨_, rfl, hr⟩)) ?_
  rintro _ s₅ ⟨_, rfl, hat₅⟩
  refine Exec.Yields.emit.leads ?_
  refine Exec.Yields.update.leads ?_
  refine Exec.Yields.view.leads ?_
  refine Exec.Leads.after ((hat₅.push leaving entering).notify _) fun _ s₆ hat₆ => ?_
  exact Exec.Leads.refl hat₆

variable [StrictScalar α]

/-- Otherwise two variables are exchanged. -/
theorem iterate_exchange (hfree : obstacle b.numCols = none) :
    (iterate l.length : Exec (Solver β α) _).Gives s fun r s' => r = none ∧
      At Shows s₀ s' (b.after sum leaving entering) (l ++ [(leaving, entering)]) := by
  refine (iterate_leads hF hat hv hlim h).gives fun s' hat' => ?_
  refine (hat'.onWorkspace (P := fun _ b' => b' = b.after sum leaving entering)
    ((hF.update _ _ hat'.shows_board (hv.exchangedAfter h) hfree).mono
      fun _ w' hw => ⟨_, rfl, hw⟩)).bind ?_
  rintro _ s'' ⟨_, rfl, hat''⟩
  exact Exec.Gives.pure ⟨rfl, hat''⟩

/-- An engine that is kept from summing rows gets no further than to the first
    one. -/
theorem iterate_stuck {o : Obstacle} (hstuck : obstacle b.numCols = some o) :
    (iterate l.length : Exec (Solver β α) _).Stops s o.stop fun _ => True := by
  refine (iterate_leads hF hat hv hlim h).stops fun s' hat' => ?_
  exact (Exec.Stops.focus (hF.updateStuck _ _ o hat'.shows_board (hv.exchangedAfter h) hstuck
    (Nat.zero_lt_of_lt (h.row_lt hv)))).bind

end Iteration

variable [StrictScalar α]

/-- How an iteration can end, and where the solver then stands: with a verdict, after an
    exchange, at the limit, or where the engine cannot sum a row. The limit can only stop an
    iteration that has found something broken. -/
theorem iterate_cases (hF : Engine.Follows sum obstacle Ready Shows) (hat : At Shows s₀ s b l)
    (hv : b.Valid) :
    (∃ sat, b.next sum = .verdict sat ∧ (iterate l.length : Exec (Solver β α) _).Gives s
        fun r s' => r = some sat ∧ At Shows s₀ s' b l) ∨
      (∃ leaving entering b', b.next sum = .exchange leaving entering b' ∧
        (iterate l.length : Exec (Solver β α) _).Gives s
          fun r s' => r = none ∧ At Shows s₀ s' b' (l ++ [(leaving, entering)])) ∨
      (∃ limit, s₀.config.maxIterations = some limit ∧ limit ≤ l.length ∧
        b.next sum ≠ .verdict true ∧ (iterate l.length : Exec (Solver β α) _).Stops s
          (.error (.iterationLimit limit)) fun s' => At Shows s₀ s' b l) ∨
      (∃ o, obstacle b.numCols = some o ∧
        (iterate l.length : Exec (Solver β α) _).Stops s o.stop fun _ => True) := by
  -- Split as the iteration does. A limit that is reached is noticed before a column is looked
  -- for, so it hides both other outcomes.
  cases hb : b.firstBroken with
  | none => exact .inl ⟨true, next_eq_sat_iff.mpr hb, iterate_sat hF hat hv hb⟩
  | some leaving =>
      by_cases hlim : s₀.BelowLimit l.length
      · cases hs : b.firstSuitable leaving with
        | none =>
            exact .inl ⟨false, next_eq_unsat_iff.mpr ⟨leaving, hb, hs⟩,
              iterate_unsat hF hat hv hlim hb hs⟩
        | some entering =>
            have hex : b.Exchanges leaving entering := ⟨hb, hs⟩
            cases hobstacle : obstacle b.numCols with
            | none =>
                exact .inr (.inl ⟨leaving, entering, _, next_eq_exchange_iff.mpr ⟨hex, rfl⟩,
                  iterate_exchange hF hat hv hlim hex hobstacle⟩)
            | some o =>
                exact .inr (.inr (.inr ⟨o, rfl, iterate_stuck hF hat hv hlim hex hobstacle⟩))
      · simp only [BelowLimit, Classical.not_forall, Nat.not_lt] at hlim
        rcases hlim with ⟨limit, hmax, hle⟩
        refine .inr (.inr (.inl ⟨limit, hmax, hle, ?_, iterate_limit hF hat hv hb hmax hle⟩))
        rw [ne_eq, next_eq_sat_iff, hb]
        simp only [reduceCtorEq, not_false_eq_true]

/-! ### Whole searches -/

/-- How a search that may make `steps` exchanges can have ended, and where the
    solver then stands. -/
inductive Ending (sum : Summation α) (obstacle : Nat → Option Obstacle)
    (Shows : Workspace β α → Board α → Prop)
    (s₀ : Solver β α) (b₀ : Board α) (steps : Nat) :
    EStateM.Result Stop (Traced (Solver β α)) Bool → Prop where
  | verdict {sat : Bool} {u : Traced (Solver β α)} {l : List (Nat × Nat)} {b : Board α} :
      Run sum b₀ l b → At Shows s₀ u.state b l → b.next sum = .verdict sat →
      Ending sum obstacle Shows s₀ b₀ steps (.ok sat u)
  | limit {limit : Nat} {u : Traced (Solver β α)} {l : List (Nat × Nat)} {b : Board α} :
      Run sum b₀ l b → At Shows s₀ u.state b l → s₀.config.maxIterations = some limit →
      limit ≤ l.length → b.next sum ≠ .verdict true →
      Ending sum obstacle Shows s₀ b₀ steps (.error (.error (.iterationLimit limit)) u)
  | fuel {u : Traced (Solver β α)} {l : List (Nat × Nat)} {b : Board α} :
      Run sum b₀ l b → At Shows s₀ u.state b l → l.length = steps →
      Ending sum obstacle Shows s₀ b₀ steps (.error .outOfFuel u)
  | stuck {o : Obstacle} {e : Stop} {u : Traced (Solver β α)} : obstacle b₀.numCols = some o →
      e = o.stop → Ending sum obstacle Shows s₀ b₀ steps (.error e u)

theorem run_ending (hF : Engine.Follows sum obstacle Ready Shows) (hv₀ : b₀.Valid) (fuel : Nat) :
    ∀ {s : Solver β α} {b : Board α} {l : List (Nat × Nat)}, Run sum b₀ l b → At Shows s₀ s b l →
      ∀ j, Ending sum obstacle Shows s₀ b₀ (l.length + fuel) (run fuel l.length ⟨s, j⟩) := by
  -- Induction on the iterations that may still be made, with the list of exchanges so far growing
  -- as it falls.
  induction fuel with
  | zero => exact fun hrun hat j => .fuel hrun hat rfl
  | succ fuel ih =>
      intro s b l hrun hat j
      rcases iterate_cases hF hat (hrun.valid hv₀) with ⟨sat, hnext, hgives⟩ |
        ⟨leaving, entering, b', hnext, hgives⟩ | ⟨limit, hmax, hle, hnext, hstops⟩ |
        ⟨o, hstuck, hstops⟩
      · rcases hgives j with ⟨r, s', j', hit, rfl, hat'⟩
        rw [run, bind_ok hit]
        exact .verdict hrun hat' hnext
      · rcases hgives j with ⟨r, s', j', hit, rfl, hat'⟩
        rw [run, bind_ok hit]
        -- One more exchange and one iteration less are as many as before.
        have hrest := ih (hrun.step hnext) hat' j'
        rw [List.length_append, List.length_singleton, Nat.add_assoc, Nat.add_comm 1] at hrest
        exact hrest
      · rcases hstops j with ⟨s', j', hit, hat'⟩
        rw [run, bind_error hit]
        exact .limit hrun hat' hmax hle hnext
      · rcases hstops j with ⟨s', j', hit, -⟩
        rw [run, bind_error hit]
        rw [hrun.same.numCols] at hstuck
        exact .stuck hstuck rfl

/-- The search ends as its iterations do. Before the first one the engine is made ready,
    which cannot fail, and after the last one the phase changes, which moves nothing. -/
theorem solve_ending (hF : Engine.Follows sum obstacle Ready Shows) (hv₀ : b₀.Valid)
    (hready : Ready s₀.workspace b₀) (hphase : s₀.phase = .building) (fuel : Nat) (j : Journal) :
    Ending sum obstacle Shows s₀ b₀ fuel (solve fuel ⟨s₀, j⟩) := by
  rcases opening_gives hF hv₀ hready j with ⟨_, s₁, j₁, hopen, hat⟩
  have hrun := run_ending hF hv₀ fuel .start hat j₁
  rw [List.length_nil, Nat.zero_add] at hrun
  rw [solve_building hphase hopen]
  -- The opening leaves the solver at the first board; the run goes on from there, and its end is
  -- turned into a phase.
  cases hres : run fuel 0 ⟨s₁, j₁⟩ with
  | ok sat u =>
      rw [hres] at hrun
      cases hrun with
      | verdict hR hat' hnext =>
          rcases finish_gives hat' sat u.journal with ⟨_, s₂, j₂, hfin, rfl, -, hat₂⟩
          rw [onError, bind_ok hres, hfin]
          exact .verdict hR hat₂ hnext
  | error e u =>
      rw [hres] at hrun
      rw [onError, bind_error hres]
      cases hrun with
      | limit hR hat' hmax hle hnext =>
          exact .limit hR ⟨hat'.shows_board, hat'.config, hat'.history⟩ hmax hle hnext
      | fuel hR hat' hlen => exact .fuel hR hat' hlen
      | @stuck o _ _ hstuck he =>
          subst he
          cases o <;> exact .stuck hstuck rfl

/-- Between two iterations the solver stands at a board of the search. From here on a
    property of such moments is a property of boards. -/
theorem Reaches.at_board (hF : Engine.Follows sum obstacle Ready Shows) (hv₀ : b₀.Valid)
    (hready : Ready s₀.workspace b₀) {j : Journal} {n : Nat} {u : Traced (Solver β α)}
    (h : Reaches ⟨s₀, j⟩ n u) :
    ∃ l b, Run sum b₀ l b ∧ l.length = n ∧ At Shows s₀ u.state b l := by
  -- Induction on the iterations. Only an iteration that made an exchange goes on, the other three
  -- endings contradict `hit`.
  induction h with
  | start _ hopen => exact ⟨[], b₀, .start, rfl, (opening_gives hF hv₀ hready).result hopen⟩
  | next _ hit ih =>
      rcases ih with ⟨l, b, hrun, rfl, hat⟩
      rcases iterate_cases hF hat (hrun.valid hv₀) with ⟨sat, hnext, hgives⟩ |
        ⟨leaving, entering, b', hnext, hgives⟩ | ⟨limit, hmax, hle, hnext, hstops⟩ |
        ⟨o, hstuck, hstops⟩
      · exact absurd (hgives.result hit).1 (by simp only [reduceCtorEq, not_false_eq_true])
      · refine ⟨_, b', hrun.step hnext, ?_, (hgives.result hit).2⟩
        rw [List.length_append, List.length_singleton]
      · exact absurd hit hstops.not_ok
      · exact absurd hit hstops.not_ok

end Solver

end BoundedSimplex
