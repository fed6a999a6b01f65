import BoundedSimplex.Proofs.Follows

/-!
# How a Search Ends

The last moment of a search, whatever ended it.

A search goes from moment to moment, `Solver.Reaches`, and none of its
iterations has a choice. So there is at most one moment after so many
exchanges, and there is one before every later one. What ends a search is the
iteration that begins at its last moment: it comes to a verdict or it stops.
Otherwise the iterations ran out.

This holds on every engine, and it is the way from a fact about the moments of
a search to one about what the search leaves behind.

## Main definitions

* `Solver.halt`: What a search does that stopped.
* `Solver.Closing`: How a search ended at its last moment.

## Theorems

* `Solver.Reaches.unique`: There is one moment after so many exchanges.
* `Solver.Reaches.exists_of_le`: A search passed through every earlier one.
* `Solver.solve_closing`: Every search ends at its opening or at a last moment.
* `Solver.Closing.at_board`: Where the solver stands after its end.
-/

namespace BoundedSimplex

namespace Solver

open Exec

variable {β α : Type} [Engine β α] {t u v w : Traced (Solver β α)} {m n fuel : Nat}

/-- An iteration has one outcome, so there is one moment after so many. One may therefore
    speak of the moment at which a variable left. -/
theorem Reaches.unique (h : Reaches t n u) (h' : Reaches t n v) : u = v := by
  induction h generalizing v with
  | start _ hopen =>
      cases h' with
      | start _ hopen' =>
          rw [hopen] at hopen'
          cases hopen'
          rfl
  | next _ hit ih =>
      cases h' with
      | next hreach hit' =>
          rw [ih hreach, hit'] at hit
          cases hit
          rfl

theorem Reaches.exists_of_le (h : Reaches t n u) (hm : m ≤ n) : ∃ w, Reaches t m w := by
  induction h with
  | start hphase hopen =>
      rw [Nat.le_zero.mp hm]
      exact ⟨_, .start hphase hopen⟩
  | @next n u u' hreach hit ih =>
      by_cases hlt : m ≤ n
      · exact ih hlt
      · rw [Nat.le_antisymm hm (Nat.lt_of_not_le hlt)]
        exact ⟨u', hreach.next hit⟩

/-- A search that stops at its opening has no moments. -/
theorem not_reaches_of_opening {e : Stop} (hopen : opening t = .error e u) : ¬ Reaches t n w := by
  intro hreach
  rcases hreach.exists_of_le (Nat.zero_le n) with ⟨v, hstart⟩
  cases hstart with
  | start _ hopen' =>
      rw [hopen] at hopen'
      cases hopen'

/-- No moment comes after one whose iteration does not go on. -/
theorem Reaches.le_of_last (h : Reaches t n w) (hlast : ∀ v, iterate n w ≠ .ok none v) {i : Nat}
    (hi : Reaches t i u) : i ≤ n := by
  refine Nat.le_of_not_lt fun hlt => ?_
  rcases hi.exists_of_le hlt with ⟨v, hv⟩
  cases hv with
  | next hreach hit =>
      rw [h.unique hreach] at hlast
      exact hlast _ hit

/-- A search that stopped: an error is recorded, and nothing else is. Only an error leaves a
    solver that can be asked why. -/
def halt : Stop → Exec (Solver β α) Bool
  | .error e => abort e
  | e => fun t => .error e t

omit [Engine β α] in
theorem onError_abort {act : Exec (Solver β α) Bool} {e : Stop} (h : act t = .error e u) :
    Exec.onError act abort t = halt e u := by
  rw [onError, h]
  cases e <;> rfl

/-- A search that gets to a moment ends as the iteration that begins there does,
    if that one comes to a verdict. -/
theorem Reaches.solve_verdict {sat : Bool} (h : Reaches t n w) (hfuel : n < fuel)
    (hit : iterate n w = .ok (some sat) v) : solve fuel t = finish sat v := by
  rcases Nat.exists_eq_add_of_lt hfuel with ⟨k, rfl⟩
  rw [Nat.add_assoc, h.solve_eq]
  simp only [onError, Bind.bind, EStateM.bind, run, hit]
  rfl

/-- And so it does if that one stops. -/
theorem Reaches.solve_halt {e : Stop} (h : Reaches t n w) (hfuel : n < fuel)
    (hit : iterate n w = .error e v) : solve fuel t = halt e v := by
  rcases Nat.exists_eq_add_of_lt hfuel with ⟨k, rfl⟩
  rw [Nat.add_assoc, h.solve_eq]
  exact onError_abort (bind_error (by rw [run, bind_error hit]))

/-- How a search that may make `fuel` iterations ended at its last moment, from which it had
    made `n` of them: what it left and what the last iteration did. With the moments before
    it, this is a complete account of a search. -/
inductive Closing (fuel n : Nat) (w : Traced (Solver β α)) :
    EStateM.Result Stop (Traced (Solver β α)) Bool → Prop where
  /-- It came to a verdict, which is recorded. -/
  | verdict {sat : Bool} {v : Traced (Solver β α)} : n < fuel → iterate n w = .ok (some sat) v →
      Closing fuel n w (finish sat v)
  /-- It stopped. -/
  | stopped {e : Stop} {v : Traced (Solver β α)} : n < fuel → iterate n w = .error e v →
      Closing fuel n w (halt e v)
  /-- There was none left to make. -/
  | fuel : n = fuel → Closing fuel n w (.error .outOfFuel w)

theorem closing_of_run (fuel : Nat) : ∀ {n : Nat} {u : Traced (Solver β α)}, Reaches t n u →
    ∃ m w, Reaches t m w ∧
      Closing (n + fuel) m w (Exec.onError (run fuel n >>= finish) abort u) := by
  -- Induction on the steps. The run goes on only after an iteration without a verdict, and that
  -- is the next moment.
  induction fuel with
  | zero => exact fun {n u} hreach => ⟨n, u, hreach, .fuel rfl⟩
  | succ fuel ih =>
      intro n u hreach
      cases hit : iterate n u with
      | error e v =>
          refine ⟨n, u, hreach, ?_⟩
          have hrun : (run (fuel + 1) n >>= finish) u = .error e v := by
            rw [run, bind_error (bind_error hit)]
          rw [onError_abort hrun]
          exact .stopped (by omega) hit
      | ok r v =>
          cases r with
          | some sat =>
              refine ⟨n, u, hreach, ?_⟩
              have hrun : Exec.onError (run (fuel + 1) n >>= finish) abort u = finish sat v := by
                simp only [onError, Bind.bind, EStateM.bind, run, hit]
                rfl
              rw [hrun]
              exact .verdict (by omega) hit
          | none =>
              have hrun : Exec.onError (run (fuel + 1) n >>= finish) abort u
                  = Exec.onError (run fuel (n + 1) >>= finish) abort v := by
                simp only [onError, Bind.bind, EStateM.bind, run, hit]
              rw [hrun, Nat.add_comm fuel, ← Nat.add_assoc]
              exact ih (hreach.next hit)

/-- A solver that was told to search before stays as it is. -/
theorem solve_frozen (hphase : t.state.phase ≠ .building) (fuel : Nat) :
    (∃ sat, solve fuel t = .ok sat t) ∨ ∃ e, solve fuel t = .error (.error e) t := by
  rw [solve, bind_ok (show Exec.state t = .ok t.state t from rfl)]
  cases hp : t.state.phase with
  | building => exact absurd hp hphase
  | sat => exact .inl ⟨true, rfl⟩
  | unsat => exact .inl ⟨false, rfl⟩
  | aborted => exact .inr ⟨_, rfl⟩

theorem final_frozen (hphase : t.state.phase ≠ .building) (fuel : Nat) :
    Exec.final (solve fuel t) = t := by
  rcases solve_frozen hphase fuel with ⟨_, hsolve⟩ | ⟨_, hsolve⟩
  · rw [hsolve]
    rfl
  · rw [hsolve]
    rfl

/-- Every search ends at its opening or at its last moment. There are no other ways,
    whatever the engine does. -/
theorem solve_closing (hphase : t.state.phase = .building) (fuel : Nat) :
    (∃ e u, opening t = .error e u ∧ solve fuel t = halt e u) ∨
      ∃ m w, Reaches t m w ∧ Closing fuel m w (solve fuel t) := by
  cases hopen : opening t with
  | ok _ u =>
      rw [solve_building hphase hopen]
      have hclosing := closing_of_run fuel (.start hphase hopen)
      rw [Nat.zero_add] at hclosing
      exact .inr hclosing
  | error e u =>
      refine .inl ⟨e, u, rfl, ?_⟩
      -- The search was announced, and then its opening failed.
      let t' : Traced (Solver β α) := ⟨t.state, t.journal.push
        (.solveStarted t.state.numRows t.state.numCols (Engine.name t.state.workspace.engine))⟩
      have hprep : (onWorkspace Engine.prepare : Exec (Solver β α) Unit) t' = .error e u := hopen
      have hsolve : solve fuel t = Exec.onError (do
          onWorkspace Engine.prepare
          let sat ← run fuel 0
          finish sat) abort t' := by
        rw [solve, bind_ok (show Exec.state t = .ok t.state t from rfl), hphase]
        rfl
      rw [hsolve]
      exact onError_abort (bind_error hprep)

/-! ### On an engine that follows the board -/

section Board

variable [Scalar α] [StrictScalar α] {sum : Summation α} {obstacle : Nat → Option Obstacle}
  {Ready Shows : Workspace β α → Board α → Prop} {b₀ : Board α}

/-- The search leaves the solver at the board of its last moment, unless something
    keeps the engine from summing rows. -/
theorem Closing.at_board (hF : Engine.Follows sum obstacle Ready Shows) (hv₀ : b₀.Valid)
    (hready : Ready t.state.workspace b₀) (hfree : obstacle b₀.numCols = none)
    (hreach : Reaches t n w) {r : EStateM.Result Stop (Traced (Solver β α)) Bool} (h : Closing fuel n w r) :
    ∃ l b, Board.Run sum b₀ l b ∧ l.length = n ∧ At Shows t.state (Exec.final r).state b l := by
  rcases hreach.at_board hF hv₀ hready with ⟨l, b, hrun, rfl, hat⟩
  refine ⟨l, b, hrun, rfl, ?_⟩
  -- The iteration that closed the search has one of four endings. Each closing agrees with one of
  -- them and contradicts the rest.
  have hcases := iterate_cases hF hat (hrun.valid hv₀)
  rw [hrun.same.numCols, hfree] at hcases
  cases h with
  | @verdict sat v _ hit =>
      rcases hcases with ⟨_, _, hgives⟩ | ⟨_, _, _, _, hgives⟩ | ⟨_, _, _, _, hstops⟩ |
        ⟨_, hsome, _⟩
      · rcases finish_gives (hgives.result hit).2 sat v.journal with ⟨_, s', j', hfin, -, -, hat'⟩
        rw [show finish sat v = _ from hfin]
        exact hat'
      · exact absurd (hgives.result hit).1 (by simp only [reduceCtorEq, not_false_eq_true])
      · exact absurd hit hstops.not_ok
      · exact absurd hsome (Option.some_ne_none _).symm
  | @stopped e v _ hit =>
      rcases hcases with ⟨_, _, hgives⟩ | ⟨_, _, _, _, hgives⟩ | ⟨limit, _, _, _, hstops⟩ |
        ⟨_, hsome, _⟩
      · exact absurd hit hgives.not_error
      · exact absurd hit hgives.not_error
      · rcases hstops w.journal with ⟨s', j', hrun', hat'⟩
        rw [show iterate l.length w = _ from hrun'] at hit
        cases hit
        exact ⟨hat'.shows_board, hat'.config, hat'.history⟩
      · exact absurd hsome (Option.some_ne_none _).symm
  | fuel _ => exact hat

end Board

end Solver

end BoundedSimplex
