import BoundedSimplex.Proofs.Keeping
import BoundedSimplex.Proofs.Moments

/-!
# What a Search Records

The history of a search and the exchanges that were made during it.

An iteration has two parts. In the first one the engine looks for two variables
and exchanges them; this is where most of what can stop an iteration stops it.
In the second one the exchange is recorded, observers are told, and the basic
variables are recomputed. The record comes first, and before it nothing can
stop. So an exchange that the engine made is recorded even if the recomputation
stops, and one that it did not make is not, however the search ends and
whatever the engine is.

## Main definitions

* `Solver.exchange`, `Solver.settle`: The two parts of an iteration.
* `Solver.PivotsAt`: An exchange that the engine made in some iteration.

## Theorems

* `Solver.iterate_eq`: An iteration is made of the two parts.
* `Solver.exchange_composed`, `Solver.settle_composed`: The steps of the parts.
* `Solver.Reaches.history`: The history at the moments of a search.
* `Solver.recorded_of_solve`: The history when it is over.
-/

namespace BoundedSimplex

namespace Solver

open Exec

variable {β α : Type} [Engine β α] {t u v w : Traced (Solver β α)} {m n fuel : Nat}

/-! ### The parts of an iteration -/

/-- An iteration as far as the exchange by the engine: a verdict, or the
    exchange that was made. -/
def exchange (iteration : Nat) : Exec (Solver β α) (Bool ⊕ PivotStep) := do
  match ← onWorkspace Engine.checkBounds with
  | none => pure (.inl true)
  | some broken =>
    checkLimit iteration
    Exec.emit (.brokenVariable iteration broken)
    notify (.broken iteration broken)
    match ← onWorkspace (Engine.findSuitable broken) with
    | none =>
      Exec.emit (.noSuitable iteration broken)
      pure (.inl false)
    | some entering =>
      onWorkspace (Engine.pivot broken entering)
      pure (.inr ⟨iteration, broken, entering⟩)

/-- The rest of an iteration: the exchange is recorded and the basic variables
    are recomputed. -/
def settle (step : PivotStep) : Exec (Solver β α) Unit := do
  Exec.emit (.pivot step.iteration step.leaving step.entering)
  Exec.update fun s => { s with history := s.history.push step }
  let basis ← Exec.view (·.basis)
  notify (.pivot step basis)
  onWorkspace Engine.updateAssignment

/-- What follows the exchange in an iteration. -/
def conclude : Bool ⊕ PivotStep → Exec (Solver β α) (Option Bool)
  | .inl sat => pure (some sat)
  | .inr step => do
    settle step
    pure none

theorem iterate_eq (n : Nat) :
    (iterate n : Exec (Solver β α) (Option Bool)) = exchange n >>= conclude := by
  unfold iterate exchange
  rw [bind_assoc]
  refine bind_congr fun broken => ?_
  -- Cut where the exchange is done: what comes before is the same in both, and what comes after
  -- is `conclude`.
  cases broken with
  | none => rfl
  | some broken =>
      simp only [bind_assoc]
      refine bind_congr fun _ => bind_congr fun _ => bind_congr fun _ => ?_
      refine bind_congr fun entering => ?_
      cases entering with
      | none => rfl
      | some entering =>
          simp only [bind_assoc, pure_bind]
          rfl

section Parts

variable {S : ∀ {γ : Type}, Exec (Solver β α) γ → Prop}

/-- The steps of which an iteration is made up to the exchange. If all of them are steps of
    some kind, then so is what they make up. -/
theorem exchange_composed (n : Nat) (hlimit : Exec.Composed S (checkLimit (β := β) (α := α) n))
    (hnotify : ∀ notice, Exec.Composed S (notify (β := β) (α := α) notice))
    (hcheck : Exec.Composed S (onWorkspace (β := β) (α := α) Engine.checkBounds))
    (hfind : ∀ broken,
      Exec.Composed S (onWorkspace (β := β) (α := α) (Engine.findSuitable broken)))
    (hpivot : ∀ leaving entering,
      Exec.Composed S (onWorkspace (β := β) (α := α) (Engine.pivot leaving entering))) :
    Exec.Composed S (exchange (β := β) (α := α) n) := by
  refine .bind hcheck fun broken => ?_
  cases broken with
  | none => exact .pure _
  | some broken =>
      refine .bind hlimit fun _ => .bind (.emit _) fun _ => .bind (hnotify _) fun _ =>
        .bind (hfind broken) fun entering => ?_
      cases entering with
      | none => exact .bind (.emit _) fun _ => .pure _
      | some entering => exact .bind (hpivot _ _) fun _ => .pure _

/-- The steps of which the rest of an iteration is made. The exchange is recorded first, and
    rows are recomputed last. -/
theorem settle_composed (step : PivotStep)
    (hrecord : Exec.Composed S
      (Exec.update fun s : Solver β α => { s with history := s.history.push step }))
    (hbasis : Exec.Composed S (Exec.view fun s : Solver β α => s.basis))
    (hnotify : ∀ notice, Exec.Composed S (notify (β := β) (α := α) notice))
    (hupdate : Exec.Composed S (onWorkspace (β := β) (α := α) Engine.updateAssignment)) :
    Exec.Composed S (settle (β := β) (α := α) step) :=
  .bind (.emit _) fun _ => .bind hrecord fun _ => .bind hbasis fun _ =>
    .bind (hnotify _) fun _ => hupdate

end Parts

/-! ### The history -/

section Keeping

omit [Engine β α]

/-- An operation of the engine leaves the history alone. -/
theorem onWorkspace_maintains_history {γ : Type} (act : Exec (Workspace β α) γ)
    (h : Array PivotStep) : (onWorkspace act).Maintains (fun s => s.history = h)
      fun _ s => s.history = h :=
  .focus fun s hs j => by cases act ⟨s.workspace, j⟩ <;> exact hs

theorem notify_maintains_history (n : Notice) (h : Array PivotStep) :
    (notify n : Exec (Solver β α) Unit).Maintains (fun s => s.history = h)
      fun _ s => s.history = h :=
  .update fun s hs => by split <;> exact hs

theorem checkLimit_maintains_history (n : Nat) (h : Array PivotStep) :
    (checkLimit n : Exec (Solver β α) Unit).Maintains (fun s => s.history = h)
      fun _ s => s.history = h := by
  intro s hs
  refine Exec.Yields.state.ends ?_
  cases s.config.maxIterations with
  | none => exact .pure hs
  | some limit =>
      by_cases hle : limit ≤ n
      · simp only [if_pos hle]
        exact .fail hs
      · simp only [if_neg hle]
        exact .pure hs

end Keeping

theorem exchange_maintains_history (n : Nat) (h : Array PivotStep) :
    (exchange n : Exec (Solver β α) _).Maintains (fun s => s.history = h)
      fun _ s => s.history = h :=
  (exchange_composed (S := fun act => act.Maintains (fun s => s.history = h)
      fun _ s => s.history = h) n (.step (checkLimit_maintains_history n h))
    (fun notice => .step (notify_maintains_history notice h))
    (.step (onWorkspace_maintains_history _ h)) (fun _ => .step (onWorkspace_maintains_history _ h))
    fun _ _ => .step (onWorkspace_maintains_history _ h)).maintains id fun _ _ hs => hs

/-- The exchange is recorded before anything else can stop. -/
theorem settle_ends_history (step : PivotStep) {s : Solver β α} {h : Array PivotStep}
    (hs : s.history = h) : (settle step : Exec (Solver β α) _).Ends s
      (fun _ s' => s'.history = h.push step) fun _ s' => s'.history = h.push step := by
  refine Exec.Yields.emit.ends (Exec.Yields.update.ends (Exec.Yields.view.ends ?_))
  refine (notify_maintains_history _ (h.push step) _ ?_).bind fun _ s' hs' =>
    onWorkspace_maintains_history _ _ s' hs'
  rw [← hs]

theorem opening_maintains_history (h : Array PivotStep) :
    (opening : Exec (Solver β α) Unit).Maintains (fun s => s.history = h)
      fun _ s => s.history = h :=
  fun _ hs => Exec.Yields.state.ends (Exec.Yields.emit.ends
    (onWorkspace_maintains_history _ h _ hs))

/-- In iteration number `n` of its search the engine made this exchange. It says nothing of
    how the iteration went on. -/
def PivotsAt (t : Traced (Solver β α)) (n : Nat) (step : PivotStep) : Prop :=
  ∃ w v, Reaches t n w ∧ exchange n w = .ok (.inr step) v

/-- An iteration after which the search goes on exchanged two variables. -/
theorem exchange_of_iterate (hit : iterate n w = .ok none v) :
    ∃ step v', exchange n w = .ok (.inr step) v' ∧ v.state.history = w.state.history.push step := by
  rw [iterate_eq] at hit
  rcases bind_eq_ok hit with ⟨r, v', hexchange, hrest⟩
  cases r with
  | inl sat => cases hrest
  | inr step =>
      rcases bind_eq_ok hrest with ⟨_, v'', hsettle, hpure⟩
      cases hpure
      have hkept := (exchange_maintains_history n _ w.state rfl).result hexchange
      exact ⟨step, v', hexchange, (settle_ends_history step hkept).result hsettle⟩

/-- The history at a moment is the list of the exchanges before it. Each of them is the one
    that the engine made in the iteration of its number. -/
theorem Reaches.history (h : Reaches t n w) : ∃ steps : List PivotStep, steps.length = n ∧
    w.state.history = t.state.history ++ steps.toArray ∧
      ∀ i step, steps[i]? = some step ↔ i < n ∧ PivotsAt t i step := by
  -- Induction on the iterations. One that goes on has pushed exactly the exchange of its engine.
  induction h with
  | @start u hphase hopen =>
      refine ⟨[], rfl, ?_, fun i step => ?_⟩
      · have hkept := (opening_maintains_history _ t.state rfl).result hopen
        exact hkept.trans Array.append_empty.symm
      · simp only [List.getElem?_nil, reduceCtorEq, Nat.not_lt_zero, false_and]
  | @next n u v hreach hit ih =>
      rcases ih with ⟨steps, hlen, hhistory, hsteps⟩
      rcases exchange_of_iterate hit with ⟨step, v', hexchange, hpushed⟩
      refine ⟨steps ++ [step], by rw [List.length_append, hlen]; rfl, ?_, fun i step' => ?_⟩
      · rw [hpushed, hhistory, ← Array.append_push, List.push_toArray]
      -- Before the last exchange the list is as it was, at it the exchange is the one of the
      -- hypothesis, and after it there is nothing.
      · rcases Nat.lt_trichotomy i n with hlt | rfl | hgt
        · rw [List.getElem?_append_left (by omega), hsteps]
          exact and_congr_left fun _ => iff_of_true hlt (by omega)
        · rw [List.getElem?_append_right (by omega), hlen, Nat.sub_self]
          simp only [List.getElem?_cons_zero, Option.some.injEq]
          constructor
          · rintro rfl
            exact ⟨Nat.lt_succ_self i, u, v', hreach, hexchange⟩
          · rintro ⟨-, w', v'', hreach', hexchange'⟩
            rw [hreach.unique hreach', hexchange'] at hexchange
            cases hexchange
            rfl
        · rw [List.getElem?_eq_none (by rw [List.length_append, hlen]; exact hgt)]
          simp only [reduceCtorEq, false_iff, not_and]
          omega

omit [Engine β α] in
theorem history_halt (e : Stop) (v : Traced (Solver β α)) :
    (Exec.final (halt e v)).state.history = v.state.history := by
  cases e <;> rfl

omit [Engine β α] in
theorem history_finish (sat : Bool) (v : Traced (Solver β α)) :
    (Exec.final (finish sat v)).state.history = v.state.history := by
  have hkept := Exec.Maintains.bind (Exec.Maintains.emit (.solveFinished sat v.state.history.size))
    (fun _ => (notify_maintains_history (β := β) (α := α) (.verdict sat v.state.history.size)
      v.state.history).bind fun _ => Exec.Maintains.pure sat)
    { v.state with phase := .ofVerdict sat } rfl v.journal
  exact hkept

/-- What is recorded when an iteration ends that was the last one: the exchange
    that its engine made, if it made one. -/
theorem recorded_of_last (hlast : ∀ v, iterate n w ≠ .ok none v) :
    ∃ last : List PivotStep, (Exec.final (iterate n w)).state.history
        = w.state.history ++ last.toArray ∧ last.length ≤ 1 ∧
      ∀ step, last[0]? = some step ↔ ∃ v, exchange n w = .ok (.inr step) v := by
  have hkept := exchange_maintains_history n w.state.history w.state rfl
  rw [iterate_eq] at hlast ⊢
  cases hexchange : exchange n w with
  | error e v =>
      have hkept := hkept.stopped hexchange
      rw [bind_error hexchange]
      refine ⟨[], hkept.trans Array.append_empty.symm, Nat.zero_le 1, fun step => ?_⟩
      simp only [List.getElem?_nil, reduceCtorEq, exists_false]
  | ok r v =>
      have hkept := hkept.result hexchange
      rw [bind_ok hexchange] at hlast ⊢
      -- A verdict comes without an exchange. An exchange was recorded already when something
      -- after it failed.
      cases r with
      | inl sat =>
          refine ⟨[], hkept.trans Array.append_empty.symm, Nat.zero_le 1, fun step => ?_⟩
          simp only [List.getElem?_nil, reduceCtorEq, EStateM.Result.ok.injEq, false_and,
            exists_false]
      | inr step =>
          have hpushed := settle_ends_history step hkept
          refine ⟨[step], ?_, Nat.le_refl 1, fun step' => ?_⟩
          · rw [← Array.push_eq_append]
            cases hsettle : settle step v with
            | ok x v' => exact absurd (bind_ok hsettle) (hlast v')
            | error e v' =>
                rw [conclude, bind_error hsettle]
                exact hpushed.stopped hsettle
          · simp only [List.getElem?_cons_zero, Option.some.injEq, EStateM.Result.ok.injEq,
              Sum.inr.injEq]
            exact ⟨fun h => ⟨v, h, rfl⟩, fun ⟨_, h, _⟩ => h⟩

/-- The history of the last moment and what the last iteration adds to it. -/
theorem Reaches.recorded_of_last (h : Reaches t n w) (hfuel : n < fuel)
    (hlast : ∀ v, iterate n w ≠ .ok none v) :
    ∃ steps : List PivotStep,
      (Exec.final (iterate n w)).state.history = t.state.history ++ steps.toArray ∧
        ∀ i step, steps[i]? = some step ↔ i < fuel ∧ PivotsAt t i step := by
  rcases h.history with ⟨steps, hlen, hhistory, hsteps⟩
  rcases Solver.recorded_of_last hlast with ⟨last, hrecorded, hle, hzero⟩
  refine ⟨steps ++ last, ?_, fun i step => ?_⟩
  · rw [hrecorded, hhistory, Array.append_assoc, List.append_toArray steps]
  -- As before, but the last step may be missing.
  · rcases Nat.lt_trichotomy i n with hlt | rfl | hgt
    · rw [List.getElem?_append_left (by omega), hsteps]
      exact and_congr_left fun _ => iff_of_true hlt (by omega)
    · rw [List.getElem?_append_right (by omega), hlen, Nat.sub_self, hzero]
      constructor
      · rintro ⟨v, hv⟩
        exact ⟨hfuel, w, v, h, hv⟩
      · rintro ⟨-, w', v, hreach', hv⟩
        rw [← h.unique hreach'] at hv
        exact ⟨v, hv⟩
    · rw [List.getElem?_eq_none (by rw [List.length_append]; omega)]
      simp only [reduceCtorEq, false_iff, not_and]
      rintro - ⟨w', v, hreach', -⟩
      exact Nat.not_le_of_lt hgt (h.le_of_last hlast hreach')

/-- However a search ended, its history lists the exchanges that the engine made
    during it, each with its number, and no others. -/
theorem recorded_of_solve (hphase : t.state.phase = .building) (fuel : Nat) :
    ∃ steps : List PivotStep,
      (Exec.final (solve fuel t)).state.history = t.state.history ++ steps.toArray ∧
        ∀ i step, steps[i]? = some step ↔ i < fuel ∧ PivotsAt t i step := by
  rcases solve_closing hphase fuel with ⟨e, u, hopen, hsolve⟩ | ⟨n, w, hreach, hclosing⟩
  · refine ⟨[], ?_, fun i step => ?_⟩
    · have hkept := (opening_maintains_history _ t.state rfl).stopped hopen
      rw [hsolve, history_halt]
      exact hkept.trans Array.append_empty.symm
    · simp only [List.getElem?_nil, reduceCtorEq, false_iff, not_and]
      rintro - ⟨w, v, hreach, -⟩
      exact not_reaches_of_opening hopen hreach
  · generalize solve fuel t = r at hclosing ⊢
    cases hclosing with
    | verdict hfuel hit =>
        have hrecorded := hreach.recorded_of_last hfuel fun v hv => by
          rw [hit] at hv
          cases hv
        rw [hit] at hrecorded
        rw [history_finish]
        exact hrecorded
    -- The last iteration may have made an exchange and stopped after it.
    | stopped hfuel hit =>
        have hrecorded := hreach.recorded_of_last hfuel fun v hv => by
          rw [hit] at hv
          cases hv
        rw [hit] at hrecorded
        rw [history_halt]
        exact hrecorded
    | fuel hn =>
        rcases hreach.history with ⟨steps, -, hhistory, hsteps⟩
        rw [← hn]
        exact ⟨steps, hhistory, hsteps⟩

end Solver

end BoundedSimplex
