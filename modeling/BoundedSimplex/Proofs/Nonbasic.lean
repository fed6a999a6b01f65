import BoundedSimplex.Proofs.Moments
import BoundedSimplex.Proofs.Parity
import BoundedSimplex.Proofs.Satisfiable
import BoundedSimplex.Proofs.Termination

/-!
# Where Nonbasic Variables Lie

Over exact numbers no nonbasic variable ever violates a bound.

The scan for broken variables skips the nonbasic ones. It may do so because
they are within their bounds at every moment of a search, provided that zero is
within the bounds of every problem variable and that no two bounds exclude each
other. A problem variable that never entered the basis is still at zero. Every
other nonbasic variable left the basis in some iteration. In the last such
iteration it was broken, and the correction took it exactly to the bound that it
violated. Nothing has moved it since: the rows that are recomputed belong to
basic variables, and a later correction moves only the two variables that it
exchanges.

The tolerance plays no part, and neither does the way in which the search ends.

## Main definitions

* `Solver.LiesAt`: Where a search left a nonbasic variable.
* `Solver.Confined`: Every nonbasic variable lies there, within its bounds.

## Theorems

* `Board.Run.isBroken_of_leavesAt`: What left the basis was broken.
* `Board.Run.never_entered`: What never left and is nonbasic never entered.
* `Sequential.confined_of_run`: Nonbasic variables at every moment of a search and
  after its end.
-/

namespace BoundedSimplex

namespace Board

section Search

variable {α : Type} [Scalar α] {sum : Summation α} {b₀ b b' : Board α} {l l' : List (Nat × Nat)}
  {v n : Nat}

/-- The variable that left in some exchange was broken right before it. That is the only
    reason for which a variable leaves. -/
theorem Run.isBroken_of_leavesAt (h : Run sum b₀ l b) (hleaves : LeavesAt l v n)
    (h' : Run sum b₀ l' b') (hlen : l'.length = n) : b'.isBroken v = true := by
  induction h with
  | start => exact absurd hleaves.lt (Nat.not_lt_zero n)
  | @step l b b'' leaving entering hrun hnext ih =>
      rcases leavesAt_append.mp hleaves with hbefore | ⟨rfl, rfl⟩
      · exact ih hbefore
      · rcases h'.unique hrun hlen with ⟨-, rfl⟩
        rcases next_eq_exchange_iff.mp hnext with ⟨hex, -⟩
        exact (firstBroken_eq_some hex.broken).2.2.1

/-- A variable that is nonbasic and never left was so from the start, and has not entered
    either: to be nonbasic again it would have had to leave. -/
theorem Run.never_entered (h : Run sum b₀ l b) (hnever : ∀ n, ¬ LeavesAt l v n)
    (hrole : b.role v = .nonbasic) : b₀.role v = .nonbasic ∧ ∀ e ∈ l, e.2 ≠ v := by
  induction h with
  | start => exact ⟨hrole, fun e he => absurd he List.not_mem_nil⟩
  | @step l b b' leaving entering hrun hnext ih =>
      rcases next_eq_exchange_iff.mp hnext with ⟨-, rfl⟩
      -- The variable is neither side of the last exchange: it does not leave, and if it had
      -- entered it would be basic.
      have hvl : v ≠ leaving := fun heq =>
        hnever l.length (leavesAt_append.mpr (.inr ⟨rfl, heq.symm⟩))
      have hve : v ≠ entering := (ne_of_roles role_after_entering hrole).symm
      rw [role_after_other hvl hve] at hrole
      rcases ih (fun n hn => hnever n (leavesAt_append.mpr (.inl hn))) hrole with ⟨hrole₀, hnot⟩
      refine ⟨hrole₀, fun e he => ?_⟩
      rcases List.mem_append.mp he with hmem | hmem
      · exact hnot e hmem
      · rw [List.mem_singleton.mp hmem]
        exact Ne.symm hve

end Search

end Board

/-! ### What a solver reports -/

namespace Solver

section Statement

variable {β : Type} [Engine β Rat]

/-- Where a search from `t` to `u` left a variable that is nonbasic in `u`. It has not moved
    since it left the basis, for the only nonbasic variable that an iteration moves is the
    one that enters. -/
inductive LiesAt (t u : Traced (Solver β Rat)) (p : Problem Rat) (v : Nat) : Rat → Prop where
  /-- It is a problem variable that never entered the basis. -/
  | initial : v < p.numCols → (∀ step ∈ u.state.history, step.entering ≠ v) → LiesAt t u p v 0
  /-- It left the basis last in iteration number `n`, which found it below its
      lower bound. -/
  | lower {n : Nat} {w : Traced (Solver β Rat)} {x l : Rat} : LeftAt u v n →
      (∀ m, n < m → ¬ LeftAt u v m) → Reaches t n w → HasValue w v x →
      (p.bounds v).lower = some l → x < l → LiesAt t u p v l
  /-- It left the basis last in iteration number `n`, which found it above its
      upper bound. -/
  | upper {n : Nat} {w : Traced (Solver β Rat)} {x l : Rat} : LeftAt u v n →
      (∀ m, n < m → ¬ LeftAt u v m) → Reaches t n w → HasValue w v x →
      (p.bounds v).upper = some l → l < x → LiesAt t u p v l

/-- Every nonbasic variable is reported where the search left it, and within its bounds.
    That there is a value to report is part of it. -/
def Confined (t u : Traced (Solver β Rat)) (p : Problem Rat) : Prop :=
  ∀ v < p.numVars, HasRole u v .nonbasic →
    ∃ x, HasValue u v x ∧ LiesAt t u p v x ∧ (p.bounds v).Contains x

end Statement

section Reports

variable {β : Type} [Engine β Rat] {sum : Summation Rat} {obstacle : Nat → Option Obstacle}
  {Ready Shows : Workspace β Rat → Board Rat → Prop} {b : Board Rat} {l : List (Nat × Nat)}
  {t u : Traced (Solver β Rat)} {p : Problem Rat} {tolerance : Rat}

/-- A variable that never left the basis and is not in it is where it was at first. -/
theorem liesAt_initial {v : Nat} (hhistory : t.state.history = #[])
    (hrun : Board.Run sum (p.board tolerance) l b) (hat : At Shows t.state u.state b l)
    (hrole : b.role v = .nonbasic) (hnever : ∀ n, ¬ Board.LeavesAt l v n) :
    v < p.numCols ∧ LiesAt t u p v 0 := by
  rcases hrun.never_entered hnever hrole with ⟨hrole₀, hnot⟩
  have hcol : v < p.numCols := by
    by_contra hge
    have hbasic : Role.initial p.numCols v = .basic := if_neg hge
    exact absurd (hrole₀.symm.trans hbasic) (by decide)
  refine ⟨hcol, .initial hcol fun step hstep => ?_⟩
  rw [hat.history, hhistory, Array.empty_append] at hstep
  exact hnot _ (mem_of_mem_stepsOf hstep)

/-- A variable that left the basis is on the bound that it violated when it left
    last. The moment before that iteration shows the board whose correction put it
    there. -/
theorem liesAt_landing {v n : Nat} {l' : List (Nat × Nat)} {b' : Board Rat}
    {w : Traced (Solver β Rat)} (hR : Engine.Reads Shows) (hhistory : t.state.history = #[])
    (hat : At Shows t.state u.state b l) (hleaves : Board.LeavesAt l v n)
    (hlast : ∀ m, n < m → ¬ Board.LeavesAt l v m) (hrun' : Board.Run sum (p.board tolerance) l' b')
    (hreach : Reaches t n w) (hat' : At Shows t.state w.state b' l') (hv : v < p.numVars)
    (hbroken : b'.isBroken v = true) : LiesAt t u p v (b'.landing v) := by
  have hleft : ∀ {m}, LeftAt u v m ↔ Board.LeavesAt l v m := leftAt_iff hat hhistory
  have hinterval : b'.interval v = p.bounds v := by rw [hrun'.same.interval]; rfl
  have hfound : HasValue w v (b'.value v) := by
    refine (hasValue_iff hR hat' ?_).mpr rfl
    rw [hrun'.same.numVars]
    exact hv
  have hlast' : ∀ m, n < m → ¬ LeftAt u v m := fun m hm h => hlast m hm (hleft.mp h)
  -- It broke its lower or its upper bound, and lands on that one.
  rcases Board.landing_cases hbroken with ⟨x, hx, hlt, heq⟩ | ⟨x, hx, hlt, heq⟩
  · rw [hinterval] at hx
    rw [heq]
    exact .lower (hleft.mpr hleaves) hlast' hreach hfound hx hlt
  · rw [hinterval] at hx
    rw [heq]
    exact .upper (hleft.mpr hleaves) hlast' hreach hfound hx hlt

/-- A solver at a board of a search, all moments before which were reached. -/
theorem confined_of_at (hF : Engine.Follows sum obstacle Ready Shows) (hR : Engine.Reads Shows)
    (hrows : p.rows.length ≤ p.maxRows) (hready : Ready t.state.workspace (p.board tolerance))
    (hhistory : t.state.history = #[]) (hrun : Board.Run sum (p.board tolerance) l b)
    (hat : At Shows t.state u.state b l) (hmoments : ∀ n < l.length, ∃ w, Reaches t n w)
    (hcons : ∀ v < p.numVars, ∀ l u, (p.bounds v).lower = some l → (p.bounds v).upper = some u →
      l ≤ u)
    (hzero : ∀ v < p.numCols, (p.bounds v).Contains 0) : Confined t u p := by
  intro v hv hrole
  have hvb : v < b.numVars := by
    rw [hrun.same.numVars]
    exact hv
  have hrole' : b.role v = .nonbasic := ((hasRole_iff hR hat hvb).mp hrole).symm
  refine ⟨b.value v, (hasValue_iff hR hat hvb).mpr rfl, ?_⟩
  -- Either it was nonbasic all the time and is at zero still, or there is a last exchange at
  -- which it left.
  rcases hrun.value_nonbasic hrole' with ⟨hnever, hvalue⟩ |
    ⟨n, l', b', hleaves, hlast, hrun', hlen, hvalue⟩
  · rcases liesAt_initial hhistory hrun hat hrole' hnever with ⟨hcol, hlies⟩
    rw [show b.value v = 0 from hvalue]
    exact ⟨hlies, hzero v hcol⟩
  · rcases hmoments n hleaves.lt with ⟨w, hreach⟩
    rcases hreach.at_board hF (Problem.valid_board hrows tolerance) hready with
      ⟨l'', b'', hrun'', hlen'', hat''⟩
    -- The board at the moment of that exchange is the one that the run passed there.
    rcases hrun'.unique hrun'' (hlen.trans hlen''.symm) with ⟨rfl, rfl⟩
    have hbroken := hrun.isBroken_of_leavesAt hleaves hrun' hlen
    have hinterval : b'.interval v = p.bounds v := by rw [hrun'.same.interval]; rfl
    have hcontains := Board.landing_contains hbroken (by
      rw [hinterval]
      exact hcons v hv)
    rw [hinterval] at hcontains
    rw [hvalue]
    exact ⟨liesAt_landing hR hhistory hat hleaves hlast hrun' hreach hat'' hv hbroken, hcontains⟩

end Reports

end Solver

namespace Sequential

variable {τ : Type} {maxRows numCols : Nat} {config : Config Rat} {calls : List (BuildCall Rat)}
  {t u : Traced τ} {s : Solver (Sequential Rat) Rat} {j : Journal}
  {t₁ : Traced (Solver (Sequential Rat) Rat)}

/-- Over exact numbers every nonbasic variable is within its bounds between any
    two iterations of a search, and after its end however it ended: it is at zero
    and never entered the basis, or it is on the bound that it violated when it
    left last. -/
theorem confined_of_run (hmake : Solver.sequential maxRows numCols config t = .ok s u)
    (hbuild : Solver.build calls ⟨s, j⟩ = .ok () t₁)
    (hcons : ∀ v < numCols + maxRows, ∀ l u,
      ((Problem.ofCalls maxRows numCols calls).bounds v).lower = some l →
      ((Problem.ofCalls maxRows numCols calls).bounds v).upper = some u → l ≤ u)
    (hzero : ∀ v < numCols, ((Problem.ofCalls maxRows numCols calls).bounds v).Contains 0) :
    (∀ n v, Solver.Reaches t₁ n v →
      Solver.Confined t₁ v (Problem.ofCalls maxRows numCols calls)) ∧
    ∀ fuel, Solver.Confined t₁ (Exec.final (Solver.solve fuel t₁))
      (Problem.ofCalls maxRows numCols calls) := by
  have hp := Problem.length_rows_ofCalls maxRows numCols calls
  have hv₀ := Problem.valid_board hp config.tolerance
  rcases Problem.dimensions_ofCalls maxRows numCols calls with ⟨hrows, hcols⟩
  rcases shows_of_build hmake hbuild with ⟨hshows, hphase, -, hhistory⟩
  -- Moments and ends of a search both stand at a board that was reached by a run.
  have hat : ∀ {n w v l b}, Solver.Reaches t₁ n w → Board.Run leftSum
      ((Problem.ofCalls maxRows numCols calls).board config.tolerance) l b → l.length = n →
      Solver.At Shows t₁.state v.state b l →
      Solver.Confined t₁ v (Problem.ofCalls maxRows numCols calls) := by
    intro n w v l b hreach hrun hlen hat
    refine Solver.confined_of_at follows reads hp hshows hhistory hrun hat (fun m hm => ?_) ?_ ?_
    · exact hreach.exists_of_le (by omega)
    · rw [Problem.numVars, hrows, hcols]
      exact hcons
    · rw [hcols]
      exact hzero
  constructor
  · intro n v hreach
    rcases at_board_of_build hmake hbuild hreach with ⟨l, b, hrun, hlen, hv⟩
    exact hat hreach hrun hlen hv
  · intro fuel
    rcases Solver.solve_closing hphase fuel with ⟨e, w, hopen, -⟩ | ⟨n, w, hreach, hclosing⟩
    · exact absurd hopen (Solver.opening_gives follows hv₀ hshows).not_error
    · rcases hclosing.at_board follows hv₀ hshows rfl hreach with ⟨l, b, hrun, hlen, hv⟩
      exact hat hreach hrun hlen hv

/-- After one exchange the slack is on its lower bound, although the bounds of
    the two variables exclude each other. -/
theorem confined_of_run_crossed :
    ∃ w, Solver.Reaches crossedSolver 1 w ∧
      w.state.history = #[⟨0, 1, 0⟩] ∧ Solver.HasRole w 1 .nonbasic ∧ Solver.HasValue w 1 2 ∧
      Solver.Confined crossedSolver w (Problem.ofCalls 1 1 crossedCalls) := by
  -- One exchange is evaluated. The bounds of the two variables cannot hold together, but each
  -- pair by itself is consistent, which is all the theorem asks.
  have htest : (Solver.moment? crossedSolver 1).any (fun w =>
      decide (w.state.history = #[⟨0, 1, 0⟩] ∧ Exec.value? (Solver.role 1 w) = some .nonbasic ∧
        Exec.value? (Solver.assignment 1 w) = some 2)) = true := by decide +kernel
  rcases (Option.any_eq_true _ _).mp htest with ⟨w, hmoment, hw⟩
  rcases of_decide_eq_true hw with ⟨hhistory, hrole, hvalue⟩
  have hreach := Solver.reaches_iff_moment.mpr hmoment
  refine ⟨_, hreach, hhistory, hrole, hvalue, ?_⟩
  refine (confined_of_run sequential_exactSolver build_crossedSolver (fun v hv l u hl hu => ?_)
    fun v hv => ?_).1 1 _ hreach
  · have hv' : v = 0 ∨ v = 1 := by omega
    rcases hv' with rfl | rfl
    · cases hl
      cases hu
      decide
    · cases hu
  · rw [Nat.lt_one_iff.mp hv, Interval.contains_iff]
    decide

end Sequential

end BoundedSimplex
