import BoundedSimplex.Proofs.Frozen

/-!
# Searches That a Device Ends

What becomes of a search when its device refuses a request.

The gateway counts the requests, and refuses one of them with an error of its
choice. Until then it passes all of them on, and as soon as it refuses, the
operation that made the request stops with that error, whatever it is, and makes
no other request: `Device.Waits` is kept by every
request that is not the one to refuse, and `Device.Hit` says what the refusal
leaves. Both depend on nothing but the count. So it makes no difference where in
a search the request was made, in which loop and for which kernel, and the proof
does not have to look there: it is about requests, and an operation only makes
requests.

The search answers the error by giving up, and from then on nothing that a caller
does makes the solver search or build again.

## Main definitions

* `Device.Waits`, `Device.Hit`: Before the refusal, and after it.
* `Solver.RefusedAt`: What a search leaves that a refusal has ended.

## Theorems

* `Device.asks_maintains`: Every request waits, or is the one that is refused.
* `Solver.session_keeps_aborted`: A solver that gave up does not search again.
* `refused_of_solve`: The refusal of any request ends the search it was made in.
-/

namespace BoundedSimplex

open Exec

namespace Device

/-- The request to refuse has `k` others of its kind before it, and was not made yet. This
    is the state of a device on which nothing has failed so far. -/
structure Waits (r : Request) (k : Nat) (error : Error) (d : Device) : Prop where
  refuse : d.refuse = some ⟨r, k, error⟩
  count : d.tally.count r ≤ k

/-- It was made and refused, and no request came after it. The error of the operation is the
    one that the device gave, unchanged. -/
structure Hit (r : Request) (k : Nat) (error : Error) (e : Stop) (d : Device) : Prop where
  stop : e = .error error
  count : d.tally.count r = k + 1
  latest : d.tally.latest = some r

/-- How an operation stops: the request to refuse was refused, or is still to
    come. -/
def Halted (r : Request) (k : Nat) (error : Error) (e : Stop) (d : Device) : Prop :=
  d.Waits r k error ∨ d.Hit r k error e

variable {r : Request} {k : Nat} {error : Error}

theorem ask_maintains (r' : Request) : (ask r').Maintains (Waits r k error) (Halted r k error) := by
  intro d hd
  refine Exec.Yields.state.ends (Exec.Yields.update.ends ?_)
  have hcount := d.tally.count_add r' r
  split
  · rename_i e hrefusal
    have hsame := Option.some.inj (hd.refuse.symm.trans (refusal?_eq_some_iff.mp hrefusal))
    rcases RefusedRequest.mk.inj hsame with ⟨rfl, hk, rfl⟩
    refine Exec.Ends.fail (.inr ⟨rfl, ?_, d.tally.latest_add r⟩)
    show (d.tally.add r).count r = k + 1
    rw [hcount, if_pos rfl, hk]
  · rename_i hpassed
    refine Exec.Ends.pure ⟨hd.refuse, ?_⟩
    show (d.tally.add r').count r ≤ k
    rw [hcount]
    by_cases hr : r' = r
    · subst hr
      -- Had there been `k` requests before, then this one would have been refused.
      have hne : d.tally.count r' ≠ k := fun hk => by
        have hrefusal : d.refusal? r' = some error :=
          refusal?_eq_some_iff.mpr (by rw [hk]; exact hd.refuse)
        cases hpassed.symm.trans hrefusal
      have hle := hd.count
      rw [if_pos rfl]
      omega
    · rw [if_neg hr]
      exact hd.count

/-- The device behind the gateway does not count. -/
theorem onHost_maintains {α : Type} (act : Exec HostDevice α) :
    (onHost act).Maintains (Waits r k error) (Halted r k error) :=
  .focus fun d hd j => by
    cases act ⟨d.host, j⟩ with
    | ok a u => exact ⟨hd.refuse, hd.count⟩
    | error e u => exact .inl ⟨hd.refuse, hd.count⟩

/-- A request that an engine makes waits for the one to refuse, or is that one. Every
    operation is made of requests, and so this carries over to whole searches. -/
theorem asks_maintains {p : Parallel} {R : Right → Prop} {α : Type} {act : Exec Device α}
    (h : p.Asks R act) : act.Maintains (Waits r k error) (Halted r k error) := by
  cases h with
  | setArg e i a _ _ => exact (ask_maintains _).bind fun _ => onHost_maintains _
  | launch e size _ =>
      exact (ask_maintains _).bind fun _ =>
        Maintains.bind (.update fun _ hd => ⟨hd.refuse, hd.count⟩) fun _ => onHost_maintains _
  | write s offset data _ =>
      exact (ask_maintains _).bind fun _ => (onHost_maintains _).bind fun _ =>
        .update fun _ hd => ⟨hd.refuse, hd.count⟩
  | read s offset count =>
      exact (ask_maintains _).bind fun _ => (onHost_maintains _).bind fun _ =>
        Maintains.bind (.update fun _ hd => ⟨hd.refuse, hd.count⟩) fun _ => .pure _
  | look _ _ => exact .view _

end Device

namespace Solver

/-! ### The search -/

section Search

variable {r : Request} {k fuel n : Nat} {error : Error}
  {t u v w : Traced (Solver (Attached Parallel) Binary32)}

/-- Every part of a search waits for the refusal, or is stopped by it. -/
theorem maintains_waits {R : Right → Prop} {α : Type}
    {act : Exec (Solver (Attached Parallel) Binary32) α} (h : Composed (Moves R) act) :
    act.Maintains (fun s => s.device.Waits r k error) fun e s => s.device.Halted r k error e :=
  maintains_of_moves (I := fun w => w.engine.device.Waits r k error)
    (Q := fun e w => w.engine.device.Halted r k error e)
    (Parallel.maintains_of_moves (fun _ _ _ hact => Device.asks_maintains hact)
      (fun _ _ _ _ hw => hw) (fun _ _ _ hw => hw) fun _ _ => .inl) (fun _ _ => .inl) h

theorem Reaches.waits (h : Reaches t n w) (ht : t.state.device.Waits r k error) :
    w.state.device.Waits r k error := by
  induction h with
  | start _ hopen =>
      exact (maintains_waits (opening_moves (R := fun _ => True) fun _ _ => trivial) _ ht).result
        hopen
  | next _ hit ih =>
      exact (maintains_waits (iterate_moves (R := fun _ => True) (fun _ _ => trivial) trivial _) _
        ih).result hit

/-- Nothing is asked of the device when a verdict is recorded. -/
theorem device_finish (sat : Bool) (v : Traced (Solver (Attached Parallel) Binary32)) :
    (Exec.final (finish sat v)).state.device = v.state.device := by
  cases hobs : v.state.observed <;>
    simp only [finish, notify, Bind.bind, EStateM.bind, Exec.state, Exec.update, Exec.emit,
      Exec.final, hobs, if_true, if_false, Bool.false_eq_true] <;> rfl

/-- A search waits for the refusal to its end, or it stops as one of its parts
    stopped, with no exchange after that. -/
theorem solve_halted (hphase : t.state.phase = .building) (ht : t.state.device.Waits r k error) :
    (Exec.final (solve fuel t)).state.device.Waits r k error ∨
      ∃ e v, v.state.device.Halted r k error e ∧ solve fuel t = halt e v ∧
        ∀ i step, PivotsAt t i step → i < fuel := by
  rcases solve_closing hphase fuel with ⟨e, u, hopen, hsolve⟩ | ⟨n, w, hreach, hclosing⟩
  · have hhalted : u.state.device.Halted r k error e :=
      (maintains_waits (opening_moves (R := fun _ => True) fun _ _ => trivial) _ ht).stopped hopen
    refine .inr ⟨e, u, hhalted, hsolve, ?_⟩
    rintro i step ⟨w, v, hreach, -⟩
    exact absurd hreach (not_reaches_of_opening hopen)
  · have hwaits := hreach.waits ht
    -- An iteration leaves the refusal waiting, or is stopped by it.
    have hiterate : (iterate n).Maintains
        (fun s : Solver (Attached Parallel) Binary32 => s.device.Waits r k error)
        fun e s => s.device.Halted r k error e :=
      maintains_waits (iterate_moves (R := fun _ => True) (fun _ _ => trivial) trivial n)
    generalize solve fuel t = x at hclosing ⊢
    -- Only a search that was stopped can have been stopped by the refusal. What came after the
    -- last moment is not counted.
    cases hclosing with
    | @verdict sat v _ hit =>
        rw [device_finish]
        exact .inl ((hiterate _ hwaits).result hit)
    | @stopped e v hfuel hit =>
        refine .inr ⟨e, v, (hiterate _ hwaits).stopped hit, rfl, ?_⟩
        rintro i step ⟨w', v', hreach', -⟩
        refine Nat.lt_of_le_of_lt (hreach.le_of_last (fun v'' hv => ?_) hreach') hfuel
        rw [hit] at hv
        cases hv
    | fuel _ => exact .inl hwaits

/-- A search during which the request was refused stopped there. -/
theorem solve_hit (ht : t.state.device.Waits r k error)
    (hasked : k < (Exec.final (solve fuel t)).state.device.tally.count r) :
    t.state.phase = .building ∧ ∃ u, u.state.device.Hit r k error (.error error) ∧
      solve fuel t = abort error u ∧
      ∀ i step, PivotsAt t i step → i < fuel := by
  -- A device that still waits was not asked so often.
  have hpassed : ¬ (Exec.final (solve fuel t)).state.device.Waits r k error := fun hwaits =>
    Nat.not_lt_of_le hwaits.count hasked
  by_cases hphase : t.state.phase = .building
  · refine ⟨hphase, ?_⟩
    rcases (solve_halted hphase ht).resolve_left hpassed with ⟨e, v, hhalted, hsolve, hbounded⟩
    have hdevice : (Exec.final (halt e v)).state.device = v.state.device := by cases e <;> rfl
    rw [hsolve, hdevice] at hpassed
    have hhit := hhalted.resolve_left hpassed
    rcases hhit.stop
    exact ⟨v, hhit, hsolve, hbounded⟩
  · rw [final_frozen hphase] at hpassed
    exact absurd ht hpassed

end Search

/-! ### After the search -/

section Aborted

variable {t u v : Traced (Solver (Attached Parallel) Binary32)}

theorem solve_aborted {β α : Type} [Engine β α] {t : Traced (Solver β α)}
    (h : t.state.phase = .aborted) (fuel : Nat) :
    solve fuel t = .error (.error (.solverFinished .aborted)) t := by
  rw [solve, bind_ok (show Exec.state t = .ok t.state t from rfl), h]
  rfl

theorem call_aborted {β α : Type} [BoundStore β α] {t : Traced (Solver β α)}
    (h : t.state.phase = .aborted) (c : BuildCall α) :
    call c t = .error (.error (.solverFinished .aborted)) t := by
  rw [call_frozen (by rw [h]; nofun) c, h]

/-- No operations make a solver that gave up search or build again. The phase has no way
    back. -/
theorem session_keeps_aborted (ops : List (Operation Binary32)) {answers}
    (ht : t.state.phase = .aborted) (h : session ops t = .ok answers v) :
    v.state.phase = .aborted := by
  rw [← after_of_session h]
  exact (phase_of_core (after_keeps_core Parallel.rereads ops (by rw [ht]; nofun))).trans ht

end Aborted

/-- A search from `t` was ended by the refusal of a request that has `k` others of its kind
    before it: no request was made after that one, there is no verdict, the history has the
    exchanges that the engine made in this search, and none of what a caller may do later
    makes the solver search or build again. An exchange is in the history as soon as it was
    carried out, also if the rows could not be recomputed any more. -/
structure RefusedAt (t : Traced (Solver (Attached Parallel) Binary32)) (r : Request) (k : Nat)
    (u : Traced (Solver (Attached Parallel) Binary32)) : Prop where
  latest : u.state.device.tally.latest = some r
  count : u.state.device.tally.count r = k + 1
  phase : u.state.phase = .aborted
  verdict : u.state.verdict? = none
  history : ∃ steps : List PivotStep, u.state.history = t.state.history ++ steps.toArray ∧
    ∀ i step, steps[i]? = some step ↔ PivotsAt t i step
  finished : ∀ ops answers v, session ops u = .ok answers v →
    (∀ fuel, solve fuel v = .error (.error (.solverFinished .aborted)) v) ∧
      ∀ c, call c v = .error (.error (.solverFinished .aborted)) v

end Solver

/-- If the device refuses a request during a search, the search stops with its
    error right there, whatever error that is. -/
theorem refused_of_solve {t : Traced (Solver (Attached Parallel) Binary32)} {r : Request}
    {k fuel : Nat} {error : Error} (hrefuse : t.state.device.refuse = some ⟨r, k, error⟩)
    (hbefore : t.state.device.tally.count r ≤ k)
    (hasked : k < (Exec.final (Solver.solve fuel t)).state.device.tally.count r) :
    ∃ u, Solver.solve fuel t = .error (.error error) u ∧ Solver.RefusedAt t r k u := by
  rcases Solver.solve_hit ⟨hrefuse, hbefore⟩ hasked with ⟨hphase, v, hhit, hsolve, hbounded⟩
  -- The stop is an error, so the search was aborted with it.
  have habort : Solver.solve fuel t = .error (.error error)
      ⟨{ v.state with phase := .aborted }, v.journal.push (.solveAborted error)⟩ := hsolve
  rcases Solver.recorded_of_solve hphase fuel with ⟨steps, hhistory, hsteps⟩
  rw [habort] at hhistory
  refine ⟨_, habort, hhit.latest, hhit.count, rfl, rfl, ⟨steps, hhistory, fun i step => ?_⟩, ?_⟩
  · rw [hsteps]
    exact ⟨fun h => h.2, fun h => ⟨hbounded i step h, h⟩⟩
  -- Aborted is a phase that nothing leaves.
  · intro ops answers w hsession
    have hphase' := Solver.session_keeps_aborted ops (by rfl) hsession
    exact ⟨Solver.solve_aborted hphase', Solver.call_aborted hphase'⟩

/-- The device refuses the launch that follows the only exchange of this search,
    with an error that no launch has of itself. The exchange is in the history. -/
theorem refused_of_solve_raising : ∃ t,
    t.state.device.refuse = some ⟨.launch, 6, .notPrepared⟩ ∧
      t.state.device.tally.count .launch ≤ 6 ∧
      6 < (Exec.final (Solver.solve 2 t)).state.device.tally.count .launch ∧
      ∃ u, Solver.solve 2 t = .error (.error .notPrepared) u ∧
        u.state.history.size = 1 ∧ Solver.RefusedAt t .launch 6 u := by
  -- The counts before and after the search are evaluated, and with them that the refusal falls
  -- inside of it.
  have hrun : Exec.endsWith (Solver.parallel 1 2 Config.standard
      ⟨{ Device.toHost (.idle ⟨4, 1⟩) with refuse := some ⟨.launch, 6, .notPrepared⟩ }, #[]⟩)
      (fun s d => Exec.endsWith (Solver.build raisingCalls ⟨s.attach d.state, #[]⟩) fun _ t =>
          t.state.device.refuse == some ⟨.launch, 6, .notPrepared⟩ &&
            (decide (t.state.device.tally.count .launch ≤ 6) &&
              Exec.stopsWith (Solver.solve 2 t) fun _ u =>
                decide (6 < u.state.device.tally.count .launch) &&
                  u.state.history.size == 1)) = true := by decide +kernel
  rcases Exec.exists_of_endsWith hrun with ⟨s, d, -, hbuild⟩
  rcases Exec.exists_of_endsWith hbuild with ⟨_, t, -, htest⟩
  rcases Bool.and_eq_true_iff.mp htest with ⟨hrefuse, hrest⟩
  rcases Bool.and_eq_true_iff.mp hrest with ⟨hbefore, hsolve⟩
  rcases Exec.exists_of_stopsWith hsolve with ⟨e, v, hstopped, htest'⟩
  rcases Bool.and_eq_true_iff.mp htest' with ⟨hasked, hsize⟩
  have hrefuse' := beq_iff_eq.mp hrefuse
  have hbefore' := of_decide_eq_true hbefore
  have hasked' : 6 < (Exec.final (Solver.solve 2 t)).state.device.tally.count .launch := by
    rw [hstopped]
    exact of_decide_eq_true hasked
  rcases refused_of_solve hrefuse' hbefore' hasked' with ⟨u, hu, hleft⟩
  rw [hstopped] at hu
  cases hu
  exact ⟨t, hrefuse', hbefore', hasked', v, hstopped, beq_iff_eq.mp hsize, hleft⟩

end BoundedSimplex
