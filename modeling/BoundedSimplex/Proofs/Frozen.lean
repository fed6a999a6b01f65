import BoundedSimplex.Proofs.Limits
import BoundedSimplex.Proofs.Looking

/-!
# Finished Solvers

A solver that has searched stays as the search has left it.

A solver is built until it is told to search, and what the search comes to is
kept: the verdict if there is one, and otherwise that there is none. There is no
way back. So what can be read off a finished solver is the same at all times,
and it makes no difference how often it is read, or what a caller has tried in
the meantime.

Two kinds of operations could undo this. Those that change the system look at
the phase before they look at what they are given, so a row of the wrong width
or a variable that does not exist is refused for the phase too. A search looks
at the phase before anything else, and repeats what the first one came to. All
others only look.

Nothing is asked of the solver. It need not stand at a board, its search may have
ended in the middle of an iteration, and its device may go on to refuse requests.
A refused question has no answer, but it changes none.

## Main definitions

* `Solver.after`: Where a solver is after some operations.
* `Solver.Open`: What becomes of a solver that has not searched.
* `Solver.Frozen`: What a finished solver has kept.

## Theorems

* `Solver.solve_ends_phase`: The phase that a search leads to.
* `Solver.perform_keeps_phase`: Nothing else leads to one.
* `Solver.after_keeps_core`: Nothing changes a finished solver.
* `solvers_freeze`: Solvers on both engines freeze.
-/

namespace BoundedSimplex

open Exec

namespace Solver

variable {β α κ : Type}

/-! ### The phase -/

/-- An operation that leaves the phase as it was. -/
def KeepsPhase {γ : Type} (act : Exec (Solver β α) γ) : Prop :=
  ∀ phase, act.Maintains (fun s => s.phase = phase) fun _ s => s.phase = phase

theorem keepsPhase_of_composed {γ : Type} {act : Exec (Solver β α) γ}
    (h : Composed KeepsPhase act) : KeepsPhase act :=
  fun phase => Composed.maintains (fun hstep => hstep phase) (fun _ _ hs => hs) h

theorem onWorkspace_keepsPhase {γ : Type} (act : Exec (Workspace β α) γ) :
    KeepsPhase (onWorkspace act) :=
  fun _ => .focus fun s hs j => by cases act ⟨s.workspace, j⟩ <;> exact hs

theorem update_keepsPhase {f : Solver β α → Solver β α} (hf : ∀ s, (f s).phase = s.phase) :
    KeepsPhase (Exec.update f) :=
  fun _ => .update fun s hs => (hf s).trans hs

theorem state_keepsPhase {γ : Type} {g : Solver β α → Exec (Solver β α) γ}
    (h : ∀ s, KeepsPhase (g s)) : KeepsPhase (Exec.state >>= g) :=
  fun phase s hs => Exec.Yields.state.ends (h s phase s hs)

theorem notify_keepsPhase (n : Notice) :
    KeepsPhase (notify n : Exec (Solver β α) Unit) :=
  update_keepsPhase fun s => by split <;> rfl

theorem checkLimit_keepsPhase (n : Nat) :
    KeepsPhase (checkLimit n : Exec (Solver β α) Unit) := by
  refine state_keepsPhase fun s => keepsPhase_of_composed ?_
  cases s.config.maxIterations with
  | none => exact .pure _
  | some limit =>
      dsimp only
      split
      · exact .fail _
      · exact .pure _

theorem ensureBuilding_keepsPhase : KeepsPhase (ensureBuilding : Exec (Solver β α) Unit) := by
  refine state_keepsPhase fun s => keepsPhase_of_composed ?_
  split
  · exact .fail _
  · exact .pure _

theorem call_keepsPhase [BoundStore β α] (c : BuildCall α) :
    KeepsPhase (call c : Exec (Solver β α) Unit) := by
  cases c with
  | constraint coeffs =>
      refine keepsPhase_of_composed (.bind (.step ensureBuilding_keepsPhase) fun _ => .step ?_)
      refine state_keepsPhase fun s => keepsPhase_of_composed (.bind (.check _) fun x => ?_)
      exact .bind (.step (update_keepsPhase fun _ => rfl)) fun _ => .emit _
  | bounds v e =>
      rw [call_bounds_eq]
      exact keepsPhase_of_composed (.bind (.step ensureBuilding_keepsPhase) fun _ =>
        .step (onWorkspace_keepsPhase _))

section Search

variable [Engine β α]

theorem iterate_keepsPhase (n : Nat) :
    KeepsPhase (iterate n : Exec (Solver β α) (Option Bool)) := by
  rw [iterate_eq]
  refine keepsPhase_of_composed (.bind (exchange_composed n (.step (checkLimit_keepsPhase n))
    (fun notice => .step (notify_keepsPhase notice)) (.step (onWorkspace_keepsPhase _))
    (fun _ => .step (onWorkspace_keepsPhase _)) fun _ _ => .step (onWorkspace_keepsPhase _))
    fun x => ?_)
  cases x with
  | inl sat => exact .pure _
  | inr step =>
      exact .bind (settle_composed step (.step (update_keepsPhase fun _ => rfl))
        (.step fun _ => .view _) (fun notice => .step (notify_keepsPhase notice))
        (.step (onWorkspace_keepsPhase _))) fun _ => .pure _

theorem run_keepsPhase (fuel : Nat) : ∀ n, KeepsPhase (run fuel n : Exec (Solver β α) Bool) := by
  induction fuel with
  | zero => exact fun _ => keepsPhase_of_composed (.stop _)
  | succ fuel ih =>
      refine fun n => keepsPhase_of_composed (.bind (.step (iterate_keepsPhase n)) fun x => ?_)
      cases x with
      | some sat => exact .pure _
      | none => exact .step (ih (n + 1))

/-- The phase after a search that stopped: an error ends the building. -/
def phaseOfStop : Stop → Phase
  | .error _ => .aborted
  | _ => .building

/-- A search leads to the phase of its verdict, or of how it stopped. Nothing is assumed of
    the engine for this. -/
theorem solve_ends_phase {s : Solver β α} (hphase : s.phase = .building) (fuel : Nat) :
    (solve fuel : Exec (Solver β α) Bool).Ends s (fun sat s' => s'.phase = .ofVerdict sat)
      fun e s' => s'.phase = phaseOfStop e := by
  -- The verdict is the last thing that is written, after which only the callback is told.
  have hfinish : ∀ (sat : Bool) (s : Solver β α), (finish sat).Ends s
      (fun sat s' => s'.phase = .ofVerdict sat) fun _ s' => s'.phase = .building := by
    intro sat s
    refine Exec.Yields.state.ends (Exec.Yields.update.ends (Exec.Yields.emit.ends ?_))
    refine ((notify_gives _ _).bind (R := fun sat s' => s'.phase = .ofVerdict sat) ?_).ends
    rintro _ _ ⟨notices, rfl⟩
    exact .pure rfl
  refine Exec.Yields.state.ends ?_
  rw [hphase]
  refine Exec.Yields.emit.ends (Exec.Ends.onError (Q := fun _ s' => s'.phase = .building)
    ((onWorkspace_keepsPhase _ _ s hphase).bind fun _ s₁ h₁ =>
      (run_keepsPhase fuel 0 _ s₁ h₁).bind fun sat s₂ _ => hfinish sat s₂) ?_ ?_)
  -- An error aborts the search.
  · intro e s' _
    exact Exec.Yields.update.ends (Exec.Yields.emit.ends (.fail rfl))
  -- A search that does not come back as an error leaves the phase alone: it never returned to
  -- write one.
  · intro e s' hne hs'
    cases e with
    | error err => exact absurd rfl (hne err)
    | outOfRange | overflow | endless | outOfFuel => exact hs'

section Answered

variable [Scalar α] {fuel : Nat} {a : Except Error (Answer α)} {t u : Traced (Solver β α)}

/-- A search is answered if it ends with a verdict or with an error. -/
theorem ended_of_answer (h : answer (.solve fuel) t = .ok a u) :
    (∃ sat, solve fuel t = .ok sat u) ∨ ∃ e, solve fuel t = .error (.error e) u := by
  rcases perform_of_answer h with ⟨x, hrun⟩ | ⟨e, hrun⟩
  · rcases bind_eq_ok hrun with ⟨sat, v, hsolve, hpure⟩
    cases hpure
    exact .inl ⟨sat, hsolve⟩
  · cases hsolve : solve fuel t with
    | ok sat v =>
        rw [perform, bind_ok hsolve] at hrun
        cases hrun
    | error e' v =>
        rw [perform, bind_error hsolve] at hrun
        cases hrun
        exact .inr ⟨e, rfl⟩

/-- And then the solver does not accept rows and bounds any more. -/
theorem phase_of_solve (h : answer (.solve fuel) t = .ok a u) : u.state.phase ≠ .building := by
  -- Either this search ends the building phase, or it was over and nothing changes.
  by_cases hphase : t.state.phase = .building
  · have hends := solve_ends_phase hphase fuel
    rcases ended_of_answer h with ⟨sat, hsolve⟩ | ⟨e, hsolve⟩
    · rw [hends.result hsolve]
      cases sat <;> nofun
    · rw [hends.stopped hsolve]
      nofun
  · have hfinal := final_frozen hphase fuel
    rcases ended_of_answer h with ⟨sat, hsolve⟩ | ⟨e, hsolve⟩
    · rw [hsolve] at hfinal
      rw [show u = t from hfinal]
      exact hphase
    · rw [hsolve] at hfinal
      rw [show u = t from hfinal]
      exact hphase

end Answered

end Search

/-! ### One operation -/

/-- A finished solver refuses every call, before it looks at what the call says. -/
theorem call_frozen {β α : Type} [BoundStore β α] {t : Traced (Solver β α)}
    (h : t.state.phase ≠ .building) (c : BuildCall α) :
    call c t = .error (.error (.solverFinished t.state.phase)) t := by
  have hensure : ensureBuilding t = .error (.error (.solverFinished t.state.phase)) t := by
    rw [ensureBuilding, bind_ok (show Exec.state t = .ok t.state t from rfl)]
    cases hphase : t.state.phase with
    | building => exact absurd hphase h
    | sat | unsat | aborted => rfl
  cases c with
  | constraint coeffs => exact bind_error hensure
  | bounds x e =>
      rw [call_bounds_eq]
      exact bind_error hensure

section Operations

variable [Scalar α] [Engine β α] {core : Workspace β α → κ} {E : κ → Stop → Prop}
  (hR : Engine.Rereads core E) {t : Traced (Solver β α)}

omit [Scalar α] [Engine β α] in
theorem phase_of_core {s s' : Solver β α} (h : s'.core core = s.core core) : s'.phase = s.phase :=
  congrArg (·.2.2.1) h

include hR

/-- Only a search leads to another phase. An operation that fails is no exception. -/
theorem perform_keeps_phase {o : Operation α} (ho : ∀ fuel, o ≠ .solve fuel)
    (t : Traced (Solver β α)) : (Exec.final (perform o t)).state.phase = t.state.phase := by
  cases o with
  | build c =>
      have hcall : KeepsPhase (perform (.build c) : Exec (Solver β α) (Answer α)) :=
        keepsPhase_of_composed (.bind (.step (call_keepsPhase c)) fun _ => .pure _)
      exact (hcall t.state.phase t.state rfl).final
  | solve fuel => exact absurd rfl (ho fuel)
  | observe _ | takeNotices => rfl
  | assignment _ | solution | role _ | entry _ _ | render | account =>
      exact phase_of_core ((question_looks hR (by trivial)).keeps t)

/-- Nothing that a caller does changes the core of a finished solver. -/
theorem perform_keeps_core (hphase : t.state.phase ≠ .building) (o : Operation α) :
    (Exec.final (perform o t)).state.core core = t.state.core core := by
  -- Calls that build and searches are turned down by the phase. The rest only look, or touch the
  -- observer and its notices, which are outside of the core.
  cases o with
  | build c =>
      rw [perform, bind_error (call_frozen hphase c)]
      rfl
  | solve fuel =>
      rcases solve_frozen hphase fuel with ⟨_, hsolve⟩ | ⟨_, hsolve⟩
      · rw [perform, bind_ok hsolve]
        rfl
      · rw [perform, bind_error hsolve]
        rfl
  | observe _ | takeNotices => rfl
  | assignment _ | solution | role _ | entry _ _ | render | account =>
      exact (question_looks hR (by trivial)).keeps t

end Operations

/-! ### All operations -/

section Runs

variable [Scalar α] [Engine β α]

/-- Where a solver is after some operations, however each of them ended. Unlike a session
    this goes on after a stop that is no error. -/
def after (ops : List (Operation α)) (t : Traced (Solver β α)) : Traced (Solver β α) :=
  ops.foldl (fun t o => Exec.final (perform o t)) t

/-- A session that is not cut off leads there. -/
theorem after_of_session {ops : List (Operation α)} :
    ∀ {t v : Traced (Solver β α)} {answers}, session ops t = .ok answers v → after ops t = v := by
  induction ops with
  | nil =>
      intro t v answers h
      cases h
      rfl
  | cons o rest ih =>
      intro t v answers h
      rcases session_cons h with ⟨a, u, as, hanswer, hsession, -⟩
      rw [after, List.foldl_cons, final_of_answer hanswer]
      exact ih hsession

/-- What becomes of a solver that has not searched: a search leads it to the phase
    of its verdict, or to the one without a verdict if it ends with an error. If it
    stops for another reason, or if the operation is another one, then the solver is
    still to be built. -/
structure Open (t : Traced (Solver β α)) : Prop where
  others : ∀ o : Operation α, (∀ fuel, o ≠ .solve fuel) →
    (Exec.final (perform o t)).state.phase = .building
  sat : ∀ fuel u, solve fuel t = .ok true u → u.state.phase = .sat
  unsat : ∀ fuel u, solve fuel t = .ok false u → u.state.phase = .unsat
  aborted : ∀ fuel e u, solve fuel t = .error (.error e) u → u.state.phase = .aborted
  stopped : ∀ fuel e u, solve fuel t = .error e u → (∀ err, e ≠ .error err) →
    u.state.phase = .building

/-- What a solver that was finished at `t` has kept at `v`: its workspace, all that it tells
    of itself, and the answers to all questions, up to how a device stops them. It refuses
    every call for its phase, and repeats what its search came to, with nothing done. The
    bounds are not among the operations of a session, and so they are listed apart. -/
structure Frozen (core : Workspace β α → κ) (E : κ → Stop → Prop) (t v : Traced (Solver β α)) :
    Prop where
  workspace : core v.state.workspace = core t.state.workspace
  account : v.state.account = t.state.account
  call : ∀ c, call c v = .error (.error (.solverFinished t.state.phase)) v
  sat : t.state.phase = .sat → ∀ fuel, solve fuel v = .ok true v
  unsat : t.state.phase = .unsat → ∀ fuel, solve fuel v = .ok false v
  aborted : t.state.phase = .aborted →
    ∀ fuel, solve fuel v = .error (.error (.solverFinished .aborted)) v
  question : ∀ o : Operation α, o.IsQuestion →
    SameUnless (E (core t.state.workspace)) (perform o t) (perform o v)
  lower : ∀ x, SameUnless (E (core t.state.workspace)) (onEngine (BoundStore.lower x) t)
    (onEngine (BoundStore.lower x) v)
  upper : ∀ x, SameUnless (E (core t.state.workspace)) (onEngine (BoundStore.upper x) t)
    (onEngine (BoundStore.upper x) v)

/-- A solver freezes: it is open until it is finished, and frozen from then on, whatever
    operations follow. -/
structure Freezes (core : Workspace β α → κ) (E : κ → Stop → Prop) (t : Traced (Solver β α)) :
    Prop where
  building : t.state.phase = .building → Open t
  finished : t.state.phase ≠ .building → ∀ ops, Frozen core E t (after ops t)

variable {core : Workspace β α → κ} {E : κ → Stop → Prop} (hR : Engine.Rereads core E)
include hR

/-- Nor do any number of operations. What they can still do is ask, and be refused. -/
theorem after_keeps_core (ops : List (Operation α)) : ∀ {t : Traced (Solver β α)},
    t.state.phase ≠ .building → (after ops t).state.core core = t.state.core core := by
  induction ops with
  | nil => exact fun _ => rfl
  | cons o rest ih =>
      intro t hphase
      have hkept := perform_keeps_core hR hphase o
      have hphase' : (Exec.final (perform o t)).state.phase ≠ .building := by
        rw [phase_of_core hkept]
        exact hphase
      rw [after, List.foldl_cons]
      exact (ih hphase').trans hkept

theorem open_of_building {t : Traced (Solver β α)} (hphase : t.state.phase = .building) :
    Open t where
  others o ho := (perform_keeps_phase hR ho t).trans hphase
  sat fuel u hsolve := (solve_ends_phase hphase fuel).result hsolve
  unsat fuel u hsolve := (solve_ends_phase hphase fuel).result hsolve
  aborted fuel e u hsolve := (solve_ends_phase hphase fuel).stopped hsolve
  stopped fuel e u hsolve hne := by
    have hkept := (solve_ends_phase hphase fuel).stopped hsolve
    cases e with
    | error err => exact absurd rfl (hne err)
    | outOfRange | overflow | endless | outOfFuel => exact hkept

/-- A finished solver with the core it had has kept everything. -/
theorem frozen_of_core {t v : Traced (Solver β α)} (hphase : t.state.phase ≠ .building)
    (h : v.state.core core = t.state.core core) : Frozen core E t v := by
  have hsame := phase_of_core h
  have hphase' : v.state.phase ≠ .building := by
    rw [hsame]
    exact hphase
  have hstate : Exec.state v = .ok v.state v := rfl
  -- Every field of `Frozen` asks something that is a function of the core and the phase.
  refine ⟨congrArg Prod.fst h, account_of_core hR h, fun c => ?_, fun hp fuel => ?_,
    fun hp fuel => ?_, fun hp fuel => ?_, fun o ho => (question_looks hR ho).same t v h,
    fun x => (onWorkspace_looks (hR.lower x)).same t v h,
    fun x => (onWorkspace_looks (hR.upper x)).same t v h⟩
  · rw [call_frozen hphase' c, hsame]
  · rw [solve, bind_ok hstate, hsame, hp]
    rfl
  · rw [solve, bind_ok hstate, hsame, hp]
    rfl
  · rw [solve, bind_ok hstate, hsame, hp]
    rfl

theorem freezes (t : Traced (Solver β α)) : Freezes core E t :=
  ⟨open_of_building hR, fun hphase ops =>
    frozen_of_core hR hphase (after_keeps_core hR ops hphase)⟩

end Runs

end Solver

/-- Solvers on both engines freeze. In the process nothing of the workspace changes.
    On a device nothing changes but what its gateway counts, and a question comes to
    the same at all times unless the gateway refuses a request for it. -/
theorem solvers_freeze :
    (∀ (α : Type) [Scalar α] (t : Traced (Solver (Sequential α) α)),
      Solver.Freezes id (fun _ _ => False) t) ∧
    ∀ t : Traced (Solver (Attached Parallel) Binary32),
      Solver.Freezes Parallel.Desk.settled Parallel.Desk.Refuses t :=
  ⟨fun _ _ t => Solver.freezes Sequential.rereads t, fun t => Solver.freezes Parallel.rereads t⟩

/-- Solvers on both engines that have found an assignment keep it, whatever is tried:
    a row of the wrong width, bounds of a variable that does not exist, and another
    search. The gateway of the second one goes on to refuse a transfer. -/
theorem solvers_freeze_raising :
    (∃ t : Traced (Solver (Sequential Binary32) Binary32), t.state.phase = .sat ∧
      Solver.Frozen id (fun _ _ => False) t
        (Solver.after [.build (.constraint #[]), .build (.bounds 9 (.lower none)), .solve 0] t)) ∧
    ∃ t : Traced (Solver (Attached Parallel) Binary32), t.state.phase = .sat ∧
      t.state.device.refuse = some (.injected .fromDevice 90) ∧
      Solver.Frozen Parallel.Desk.settled Parallel.Desk.Refuses t
        (Solver.after
          [.build (.constraint #[]), .build (.bounds 9 (.lower none)), .solve 0] t) := by
  constructor
  -- The search is evaluated to its end; that nothing later changes the outcome is the theorem.
  · have hrun : Exec.endsWith (Solver.sequential 1 2 Config.standard (⟨(), #[]⟩ : Traced Unit))
        (fun s _ => Exec.endsWith (Solver.build raisingCalls ⟨s, #[]⟩) fun _ t =>
          Exec.endsWith (Solver.solve 2 t) fun _ u => decide (u.state.phase = .sat)) = true := by
      decide +kernel
    rcases Exec.exists_of_endsWith hrun with ⟨s, _, -, hbuild⟩
    rcases Exec.exists_of_endsWith hbuild with ⟨_, t, -, hsolve⟩
    rcases Exec.exists_of_endsWith hsolve with ⟨_, u, -, hphase⟩
    have hsat := of_decide_eq_true hphase
    exact ⟨u, hsat, (solvers_freeze.1 Binary32 u).finished (by rw [hsat]; nofun) _⟩
  · have hrun : Exec.endsWith (Solver.parallel 1 2 Config.standard
        ⟨{ Device.toHost (.idle ⟨4, 1⟩) with refuse := some (.injected .fromDevice 90) }, #[]⟩)
        (fun s d => Exec.endsWith (Solver.build raisingCalls ⟨s.attach d.state, #[]⟩) fun _ t =>
          Exec.endsWith (Solver.solve 2 t) fun _ u => decide (u.state.phase = .sat ∧
            u.state.device.refuse = some (.injected .fromDevice 90))) = true := by decide +kernel
    rcases Exec.exists_of_endsWith hrun with ⟨s, d, -, hbuild⟩
    rcases Exec.exists_of_endsWith hbuild with ⟨_, t, -, hsolve⟩
    rcases Exec.exists_of_endsWith hsolve with ⟨_, u, -, htest⟩
    rcases of_decide_eq_true htest with ⟨hsat, hrefuse⟩
    exact ⟨u, hsat, hrefuse, (solvers_freeze.2 u).finished (by rw [hsat]; nofun) _⟩

end BoundedSimplex
