import BoundedSimplex.Proofs.Reports

/-!
# Assignments That Were Found

What both engines promise of an assignment, and one that is out of bounds.

The engines differ in where they keep values and roles, and in how they sum
rows. Neither matters here: both report the board that they show, so a verdict
of satisfiability vouches for the same on both. No basic variable is broken. A
nonbasic one is where it was put last, and the assignment is within all bounds
exactly if these places are.

That this is not always so takes no search at all. The bounds of a problem
variable are not looked at before it first becomes basic, so one that has to be
five, and that no bounded constraint mentions, is reported at zero.

## Main definitions

* `Sequential.Built`, `Parallel.Built`: The solvers of a problem.
* `restingCalls`: A problem that is decided without an exchange.

## Theorems

* `Sequential.reads`, `Parallel.reads`: What the engines report.
* `vouches_of_satisfiable`: What a verdict of satisfiability says of the bounds.
* `not_unbroken_of_satisfiable`: It does not say that they hold.
-/

namespace BoundedSimplex

/-! ### What the engines report -/

theorem Sequential.reads {α : Type} [Scalar α] : Engine.Reads (β := Sequential α) Shows :=
  reports.reads

theorem Parallel.reads (width : Nat) : Engine.Reads (β := Attached Parallel) (Shows width) :=
  (reports_shows width).reads

/-! ### What a verdict says -/

/-- A solver in the process that was given these calls. -/
def Sequential.Built (maxRows numCols : Nat) (config : Config Binary32)
    (calls : List (BuildCall Binary32)) (t₁ : Traced (Solver (Sequential Binary32) Binary32)) :
    Prop :=
  ∃ (t : Traced Unit) (s : Solver (Sequential Binary32) Binary32) (u : Traced Unit) (j : Journal),
    Solver.sequential maxRows numCols config t = .ok s u ∧
      Solver.build calls ⟨s, j⟩ = .ok () t₁

/-- A solver on a host device that was given these calls. What else is on the device may be
    anything, and so may the journal. -/
def Parallel.Built (maxRows numCols : Nat) (config : Config Binary32)
    (calls : List (BuildCall Binary32)) (t₁ : Traced (Solver (Attached Parallel) Binary32)) :
    Prop :=
  ∃ (host : HostDevice) (j : Journal) (s : Solver Parallel Binary32) (u : Traced Device)
    (j' : Journal), Solver.parallel maxRows numCols config ⟨.toHost host, j⟩ = .ok s u ∧
      Solver.build calls ⟨s.attach u.state, j'⟩ = .ok () t₁

/-- A verdict of satisfiability on either engine vouches for the basic variables, and for
    all of them exactly if the others rest within bounds. A variable that is never exchanged
    rests at zero, which its bounds may exclude. -/
theorem vouches_of_satisfiable (maxRows numCols : Nat) (config : Config Binary32)
    (calls : List (BuildCall Binary32)) (fuel : Nat) :
    (∀ t₁ t₂, Sequential.Built maxRows numCols config calls t₁ →
      Solver.solve fuel t₁ = .ok true t₂ →
      Solver.Vouches t₁ t₂ (Problem.ofCalls maxRows numCols calls) config.tolerance) ∧
    ∀ t₁ t₂, Parallel.Built maxRows numCols config calls t₁ →
      Solver.solve fuel t₁ = .ok true t₂ →
      Solver.Vouches t₁ t₂ (Problem.ofCalls maxRows numCols calls) config.tolerance := by
  -- The argument is one for every engine that follows the search; here it is applied to the two
  -- there are.
  have hrows := Problem.length_rows_ofCalls maxRows numCols calls
  constructor
  · intro t₁ t₂ hbuilt hsolve
    rcases hbuilt with ⟨t, s, u, j, hmake, hbuild⟩
    rcases Sequential.shows_of_build hmake hbuild with ⟨hshows, hphase, -, hhistory⟩
    exact Solver.vouches_of_solve Sequential.follows Sequential.reads hshows hrows hphase hhistory
      hsolve
  · intro t₁ t₂ hbuilt hsolve
    rcases hbuilt with ⟨host, j, s, u, j', hmake, hbuild⟩
    rcases Parallel.ready_of_build hmake hbuild with ⟨hready, hphase, hhistory⟩
    exact Solver.vouches_of_solve (Parallel.follows _) (Parallel.reads _) hready hrows hphase
      hhistory hsolve

/-! ### A verdict with a variable out of bounds -/

/-- A problem variable that has to be five, and a constraint that demands nothing of it: its
    slack is nonnegative, and zero will do. -/
def restingCalls : List (BuildCall Binary32) :=
  [.constraint #[1], .bounds 0 (.both ⟨some ⟨0x40a00000⟩, some ⟨0x40a00000⟩⟩)]

/-- Single numbers without a tolerance, and no limits. -/
def singleConfig : Config Binary32 := ⟨0, none, none⟩

/-- The verdict on this problem and the value of the variable. -/
def restingRun {β : Type} [Engine β Binary32] : Exec (Solver β Binary32) (Bool × Binary32) := do
  Solver.build restingCalls
  let sat ← Solver.solve 1
  let x ← Solver.assignment 0
  pure (sat, x)

theorem resting_of_run {β : Type} [Engine β Binary32] {t : Traced (Solver β Binary32)}
    (h : Exec.value? (restingRun t) = some (true, 0)) :
    ∃ t₁ t₂, Solver.build restingCalls t = .ok () t₁ ∧ Solver.solve 1 t₁ = .ok true t₂ ∧
      Solver.HasValue t₂ 0 0 := by
  rcases Exec.bind_eq_ok (Exec.eq_ok_of_value? h) with ⟨_, t₁, hbuild, hrest⟩
  rcases Exec.bind_eq_ok hrest with ⟨sat, t₂, hsolve, hrest'⟩
  rcases Exec.bind_eq_ok hrest' with ⟨x, t₃, hvalue, hpure⟩
  cases hpure
  exact ⟨t₁, t₂, hbuild, hsolve, congrArg Exec.value? hvalue⟩

theorem Sequential.solve_resting :
    ∃ t₁ t₂, Built 1 1 singleConfig restingCalls t₁ ∧ Solver.solve 1 t₁ = .ok true t₂ ∧
      Solver.HasValue t₂ 0 0 := by
  have hrun : Exec.value? (restingRun ⟨Solver.fresh 1 1 singleConfig
      (initial 1 1 singleConfig.tolerance), #[]⟩) = some (true, 0) := by decide +kernel
  rcases resting_of_run hrun with ⟨t₁, t₂, hbuild, h⟩
  exact ⟨t₁, t₂, ⟨⟨(), #[]⟩, _, ⟨(), #[.solverCreated 1 1 "sequential"]⟩, #[], rfl, hbuild⟩, h⟩

theorem Parallel.solve_resting :
    ∃ t₁ t₂, Built 1 1 singleConfig restingCalls t₁ ∧ Solver.solve 1 t₁ = .ok true t₂ ∧
      Solver.HasValue t₂ 0 0 := by
  let made := Solver.parallel 1 1 singleConfig ⟨.toHost (.idle ⟨4, 1⟩), #[]⟩
  -- The run is evaluated with the bounds five and five on a column, which the verdict does not
  -- look at.
  have hrun : (match made with
      | .ok s u => Exec.value? (restingRun ⟨s.attach u.state, #[]⟩)
      | .error _ _ => none) = some (true, 0) := by decide +kernel
  cases hmake : made with
  | ok s u =>
      rw [hmake] at hrun
      rcases resting_of_run hrun with ⟨t₁, t₂, hbuild, h⟩
      exact ⟨t₁, t₂, ⟨.idle ⟨4, 1⟩, #[], s, u, #[], hmake, hbuild⟩, h⟩
  | error e u =>
      rw [hmake] at hrun
      cases hrun

theorem Binary32.lt_abs_zero (x : Binary32) : x.abs.lt 0 = false := by
  have hsign : x.abs.isNegative = false := by
    have hbits : (x.bits &&& 0x7fffffff) &&& 0x80000000 = 0 := by
      rw [UInt32.and_assoc]
      exact UInt32.and_zero
    rw [isNegative, abs, magnitude, hbits]
    rfl
  have hzero : (0 : Binary32).order = 0 := by decide
  have horder : ¬ x.abs.order < (0 : Binary32).order := by
    rw [hzero, order, hsign, if_neg Bool.false_ne_true]
    omega
  rw [lt, decide_eq_false horder, Bool.and_false]

theorem not_unbroken_of_resting {β : Type} [Engine β Binary32] {u : Traced (Solver β Binary32)}
    (h : Solver.HasValue u 0 0) :
    ¬ Solver.Unbroken u (Problem.ofCalls 1 1 restingCalls) singleConfig.tolerance := by
  intro hall
  have hbounds : (Problem.ofCalls 1 1 restingCalls).bounds 0
      = ⟨some ⟨0x40a00000⟩, some ⟨0x40a00000⟩⟩ := by decide +kernel
  have hunbroken := hall 0 (by decide +kernel) 0 h
  -- Without a tolerance no value is near a bound.
  have hfar : ∀ x y : Binary32, Interval.isNear singleConfig.tolerance x y = false :=
    fun x y => Binary32.lt_abs_zero (x - y)
  have hlow : Scalar.lt (0 : Binary32) ⟨0x40a00000⟩ = true := by decide
  rw [hbounds] at hunbroken
  simp only [Interval.isBroken, Option.any_some, hfar, hlow, Bool.not_false, Bool.and_self,
    Bool.true_or, Bool.true_eq_false] at hunbroken

/-- The verdict stands while the variable is reported at zero. -/
theorem not_unbroken_of_satisfiable :
    (∃ t₁ t₂, Sequential.Built 1 1 singleConfig restingCalls t₁ ∧
      Solver.solve 1 t₁ = .ok true t₂ ∧
      ¬ Solver.Unbroken t₂ (Problem.ofCalls 1 1 restingCalls) singleConfig.tolerance) ∧
    ∃ t₁ t₂, Parallel.Built 1 1 singleConfig restingCalls t₁ ∧
      Solver.solve 1 t₁ = .ok true t₂ ∧
      ¬ Solver.Unbroken t₂ (Problem.ofCalls 1 1 restingCalls) singleConfig.tolerance := by
  constructor
  · rcases Sequential.solve_resting with ⟨t₁, t₂, hbuilt, hsolve, hzero⟩
    exact ⟨t₁, t₂, hbuilt, hsolve, not_unbroken_of_resting hzero⟩
  · rcases Parallel.solve_resting with ⟨t₁, t₂, hbuilt, hsolve, hzero⟩
    exact ⟨t₁, t₂, hbuilt, hsolve, not_unbroken_of_resting hzero⟩

/-- What the verdict on this problem does vouch for. -/
theorem vouches_of_satisfiable_resting :
    (∃ t₁ t₂, Sequential.Built 1 1 singleConfig restingCalls t₁ ∧
      Solver.solve 1 t₁ = .ok true t₂ ∧
      Solver.Vouches t₁ t₂ (Problem.ofCalls 1 1 restingCalls) singleConfig.tolerance) ∧
    ∃ t₁ t₂, Parallel.Built 1 1 singleConfig restingCalls t₁ ∧
      Solver.solve 1 t₁ = .ok true t₂ ∧
      Solver.Vouches t₁ t₂ (Problem.ofCalls 1 1 restingCalls) singleConfig.tolerance := by
  have h := vouches_of_satisfiable 1 1 singleConfig restingCalls 1
  constructor
  · rcases Sequential.solve_resting with ⟨t₁, t₂, hbuilt, hsolve, -⟩
    exact ⟨t₁, t₂, hbuilt, hsolve, h.1 t₁ t₂ hbuilt hsolve⟩
  · rcases Parallel.solve_resting with ⟨t₁, t₂, hbuilt, hsolve, -⟩
    exact ⟨t₁, t₂, hbuilt, hsolve, h.2 t₁ t₂ hbuilt hsolve⟩

end BoundedSimplex
