import BoundedSimplex.Proofs.Bookkeeping

/-!
# Nothing Fails on the Way

The errors of a solver all have their reason in what was asked of it.

An engine has many ways to fail that no caller could bring about knowingly: a
launch that the device rejects, an argument that is unset, a transfer outside a
buffer, an exchange at a cell that is zero, an index beyond a table. None of
them happens. A search ends with a verdict, at the iteration limit, or with the
refusal of a solver that was stopped there before; every other operation is
answered, or refused for an index, a width or a room that the caller named.

It makes no difference what the numbers are. Coefficients and bounds may be
undefined or infinite, and there need not be any constraint at all. What it
takes is a device whose workgroups can add up a row, so that an engine which
sums in vain is left out. A search that goes in circles is not an answer; it
shows as fuel that was used up, whatever fuel it was given.

## Main definitions

* `Answered`: How a session ends if nothing fails.

## Theorems

* `Solver.answered_of_stage`: Any engine whose sums end.
* `answered_of_serve`: Both engines.
-/

namespace BoundedSimplex

/-- How a session ends if nothing fails: every operation has a regular answer, or one of the
    searches has used up its fuel. Fuel stands for a search that has not ended yet, and is
    no failure. -/
inductive Answered {α : Type} (limit : Option Nat) (ops : List (Operation α)) :
    Except Stop (List (Except Error (Answer α))) → Prop where
  | all {answers : List (Except Error (Answer α))} :
      List.Forall₂ (Regular limit) ops answers → Answered limit ops (.ok answers)
  | fuel : Answered limit ops (.error .outOfFuel)

/-- An engine that nothing keeps from summing rows fails in no session. It is compared with
    itself for this: what ends alike on two engines ends well on both or is refused on both. -/
theorem Solver.answered_of_stage {β α : Type} [Scalar α] [StrictScalar α] [Engine β α]
    {R : Engine.Reading β α} {maxRows numCols : Nat} {c : Config α} {t : Traced (Solver β α)}
    (h : Stage R R maxRows numCols c t.state t.state) (hfree : R.obstacle numCols = none)
    (ops : List (Operation α)) :
    Answered c.maxIterations ops (Exec.outcome (session ops t)) := by
  rcases session_stage ops h with ⟨e, hstop, hcut⟩ | ⟨answers, u, hrun, hregular, -⟩
  · rw [hstop]
    cases hcut with
    | fuel => exact .fuel
    | stuck hstuck _ =>
        rw [hfree] at hstuck
        cases hstuck
  · rw [hrun]
    exact .all hregular

/-- On both engines nothing fails, whatever is asked of a solver and whatever the numbers
    are, as long as what is counted in words fits them. In particular no index leaves a
    table, with infinities and numbers that are none among the coefficients as well. -/
theorem answered_of_serve {maxRows numCols : Nat} {config : Config Binary32}
    (hinput : Solver.checkInput maxRows numCols config = .ok ())
    (ops : List (Operation Binary32)) :
    (∀ t : Traced Unit, Answered config.maxIterations ops
      (Exec.outcome (Sequential.serve maxRows numCols config ops t))) ∧
    ∀ (host : HostDevice) (j : Journal), 1 ≤ host.limits.maxWorkgroupSize →
      (Geometry.ofDevice host.info config.maxWorkgroupSize).InWords numCols →
      2 ≤ (Geometry.ofDevice host.info config.maxWorkgroupSize).workgroup ∨ numCols = 1 →
      Answered config.maxIterations ops
        (Exec.outcome (Parallel.serve maxRows numCols config ops ⟨.toHost host, j⟩)) := by
  have hsize := (Solver.checkDimensions_eq_ok (Solver.checkInput_eq_ok hinput).1).2.2
  constructor
  · intro t
    rcases Sequential.outcome_serve ops t hinput with ⟨s, u, -, rfl, hserve⟩
    -- The solver is compared with itself: that both sides answer alike leaves no other answers
    -- than these.
    have hstage : Solver.Stage Sequential.reading Sequential.reading maxRows numCols config _ _ :=
      Solver.stage_fresh rfl rfl (Sequential.describes_fresh hsize)
        (Sequential.describes_fresh hsize)
    rw [hserve]
    exact Solver.answered_of_stage hstage rfl ops
  · intro host j hlimit hwords hwidth
    have hlimit' : host.info.maxWorkgroupSize ≠ 0 := Nat.ne_of_gt hlimit
    rcases Parallel.outcome_serve ops j hinput hlimit' hwords.chunk with
      ⟨s, d, j', hgeometry, hdesc, ⟨engine, rfl⟩, hserve⟩
    rw [hgeometry] at hdesc
    have hstage : Solver.Stage (Parallel.reading _) (Parallel.reading _) maxRows numCols config _
        _ := Solver.stage_fresh rfl rfl hdesc hdesc
    rw [hserve]
    -- No obstacle, since what is counted fits a word and the sums end.
    have hfree := sumObstacle_eq_none (Nat.two_pow_pos _) hwords hwidth
    exact Solver.answered_of_stage hstage hfree ops

/-- A session in which nothing is finite: an undefined coefficient, and a slack
    that has to be infinite. -/
def unboundedSession : List (Operation Binary32) :=
  [.build (.constraint #[⟨0x7fc00000⟩]), .build (.bounds 1 (.lower (some ⟨0x7f800000⟩))), .solve 1,
    .solution, .solve 1]

/-- All its operations are answered, with a single item to a workgroup. -/
theorem answered_of_serve_unbounded :
    Solver.checkInput 1 1 Config.standard = .ok () ∧
    (∃ answers, Exec.outcome (Sequential.serve 1 1 Config.standard unboundedSession
        (⟨(), #[]⟩ : Traced Unit)) = .ok answers ∧
      Answered none unboundedSession (.ok answers)) ∧
    ∃ answers, Exec.outcome (Parallel.serve 1 1 Config.standard unboundedSession
        ⟨.toHost (.idle ⟨1, 1⟩), #[]⟩) = .ok answers ∧
      Answered none unboundedSession (.ok answers) := by
  have hinput : Solver.checkInput 1 1 Config.standard = .ok () := by decide +kernel
  have hanswered := answered_of_serve hinput unboundedSession
  refine ⟨hinput, ?_, ?_⟩
  -- That the session is answered at all is evaluated, and what the answers can be is the theorem.
  · have hrun : Exec.endsWith (Sequential.serve 1 1 Config.standard unboundedSession
        (⟨(), #[]⟩ : Traced Unit)) (fun _ _ => true) = true := by decide +kernel
    rcases Exec.exists_of_endsWith hrun with ⟨answers, u, hserve, -⟩
    have h := hanswered.1 ⟨(), #[]⟩
    rw [hserve] at h ⊢
    exact ⟨answers, rfl, h⟩
  · have hrun : Exec.endsWith (Parallel.serve 1 1 Config.standard unboundedSession
        ⟨.toHost (.idle ⟨1, 1⟩), #[]⟩) (fun _ _ => true) = true := by decide +kernel
    rcases Exec.exists_of_endsWith hrun with ⟨answers, u, hserve, -⟩
    have h := hanswered.2 (.idle ⟨1, 1⟩) #[] (by decide) (by decide +kernel) (.inr rfl)
    rw [hserve] at h ⊢
    exact ⟨answers, rfl, h⟩

end BoundedSimplex
