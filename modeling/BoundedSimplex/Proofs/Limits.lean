import BoundedSimplex.Proofs.Recorded
import BoundedSimplex.Proofs.Satisfiable
import BoundedSimplex.Proofs.Twins

/-!
# Iteration Limits

What a limit on the iterations makes of a search that would end without it.

Nothing looks at the limit but `Solver.checkLimit`, which compares it with the
number of the iteration. So two solvers that differ in the limit alone go side
by side for as long as neither has reached its own, and the state of one is that
of the other with the other limit. A search that ends earlier under the larger
limit ends in the same way under the smaller one.

The comparison comes after the scan for broken variables and before anything is
done about the one that was found. Hence a search that is satisfied after the
last exchange allowed gets its verdict, and one that is not stops with nothing
changed since the rows were recomputed. A verdict that needs a column to be
looked for does not come so late any more.

## Main definitions

* `Solver.withLimit`: The solver with another limit.
* `Solver.LimitLe`: One limit is at most another one.
* `Solver.Indistinct`: Two solvers that report the same.
* `Solver.EndsAt`: The last moment of a search that ends by itself.
* `Solver.Truncated`: A search under a limit, by the one under a larger limit.

## Theorems

* `Solver.Reaches.withLimit`: The moments before the limit.
* `Solver.iterate_sat_withLimit`: A verdict right at the limit.
* `Solver.EndsAt.within`, `Solver.EndsAt.cut`: A search that ends within the limit, and
  one that does not.
* `Solver.truncated_of_solve`: Any engine that follows the board.
* `truncated_of_built`: Both engines.
-/

namespace BoundedSimplex

/-- The choices with another limit. -/
def Config.withLimit {α : Type} (c : Config α) (limit : Option Nat) : Config α :=
  { c with maxIterations := limit }

namespace Solver

open Exec

variable {β α : Type}

/-- The solver with another limit. All else is the same, so two searches under different
    limits begin from almost the same state. -/
def withLimit (limit : Option Nat) (s : Solver β α) : Solver β α :=
  { s with config := s.config.withLimit limit }

/-- The limit is not reached after `n` exchanges. -/
def Allows (limit : Option Nat) (n : Nat) : Prop := ∀ l, limit = some l → n < l

/-- The first limit is at most the second one. No limit is above all others, and below none
    but itself. -/
def LimitLe (limit limit' : Option Nat) : Prop := ∀ l', limit' = some l' → ∃ l ≤ l', limit = some l

theorem LimitLe.allows {limit limit' : Option Nat} (h : LimitLe limit limit') {n : Nat}
    (hn : Allows limit n) : Allows limit' n := by
  intro l' hl'
  rcases h l' hl' with ⟨l, hle, hl⟩
  exact Nat.lt_of_lt_of_le (hn l hl) hle

/-! ### Nothing else looks at the limit -/

section Carrying

variable {limit limit' : Option Nat} {E : Stop → Prop} {n : Nat}

/-- The solver has this limit. -/
def Limited (limit : Option Nat) (s : Solver β α) : Prop := s.config.maxIterations = limit

theorem carries_onWorkspace {γ : Type} (act : Exec (Workspace β α) γ) :
    (onWorkspace act).Carries (Limited limit') E (withLimit limit) :=
  (Carries.refl act).focus (fun _ => rfl) (fun _ _ => rfl) fun _ _ h => h

theorem carries_notify (notice : Notice) :
    (notify notice : Exec (Solver β α) Unit).Carries (Limited limit') E (withLimit limit) := by
  refine .update (fun s _ => ?_) fun s hs => ?_
  · cases hobs : s.observed <;> simp only [withLimit, hobs, if_true, if_false, Bool.false_eq_true]
  · split <;> exact hs

/-- Where neither limit is reached the comparison does nothing. -/
theorem carries_checkLimit (h : Allows limit n) (h' : Allows limit' n) :
    (checkLimit n : Exec (Solver β α) Unit).Carries (Limited limit') E (withLimit limit) := by
  -- Both comparisons come out alike, so neither run is stopped and neither is changed.
  have hpass : ∀ {l : Option Nat} {t : Traced (Solver β α)}, Limited l t.state → Allows l n →
      checkLimit n t = .ok () t := by
    intro l t ht hl
    rw [checkLimit, bind_ok (show Exec.state t = .ok t.state t from rfl)]
    cases hmax : t.state.config.maxIterations with
    | none => rfl
    | some k =>
        have hlt := hl k (ht.symm.trans hmax)
        simp only [if_neg (Nat.not_le_of_lt hlt)]
        rfl
  intro t ht
  unfold CarriesAt
  rw [hpass ht h']
  exact ⟨hpass (t := t.map (withLimit limit)) rfl h, ht⟩

variable [Engine β α]

theorem carries_exchange (h : Allows limit n) (h' : Allows limit' n) :
    (exchange n : Exec (Solver β α) _).Carries (Limited limit') E (withLimit limit) :=
  (exchange_composed (S := fun act => act.Carries (Limited limit') E (withLimit limit)) n
    (.step (carries_checkLimit h h')) (fun _ => .step (carries_notify _))
    (.step (carries_onWorkspace _)) (fun _ => .step (carries_onWorkspace _))
    fun _ _ => .step (carries_onWorkspace _)).carries id

theorem carries_settle (step : PivotStep) :
    (settle step : Exec (Solver β α) _).Carries (Limited limit') E (withLimit limit) :=
  (settle_composed (S := fun act => act.Carries (Limited limit') E (withLimit limit)) step
    (.step (.update (fun _ _ => rfl) fun _ hs => hs)) (.step (.view fun _ _ => rfl))
    (fun _ => .step (carries_notify _)) (.step (carries_onWorkspace _))).carries id

theorem carries_iterate (h : Allows limit n) (h' : Allows limit' n) :
    (iterate n : Exec (Solver β α) _).Carries (Limited limit') E (withLimit limit) := by
  rw [iterate_eq]
  refine (carries_exchange h h').bind fun r => ?_
  cases r with
  | inl sat => exact .pure _
  | inr step => exact (carries_settle step).bind fun _ => .pure _

theorem carries_opening :
    (opening : Exec (Solver β α) _).Carries (Limited limit') E (withLimit limit) :=
  .state (fun _ _ => rfl) fun _ => (Carries.emit _).bind fun _ => carries_onWorkspace _

omit [Engine β α] in
theorem carries_finish (sat : Bool) :
    (finish sat : Exec (Solver β α) _).Carries (Limited limit') E (withLimit limit) := by
  refine .state (fun _ _ => rfl) fun _ => ?_
  refine Carries.bind (.update (fun _ _ => rfl) fun _ hs => hs) fun _ => ?_
  exact (Carries.emit _).bind fun _ => (carries_notify _).bind fun _ => .pure _

/-- The moments before the limit are the same. An iteration that is not the last one looks
    at the limit and goes on, and does not depend on it in any other way. -/
theorem Reaches.withLimit {t w : Traced (Solver β α)} (h : Reaches t n w)
    (ht : Limited limit' t.state) (hle : LimitLe limit limit') (hn : ∀ m < n, Allows limit m) :
    Reaches (t.map (Solver.withLimit limit)) n (w.map (Solver.withLimit limit)) ∧
      Limited limit' w.state := by
  induction h with
  | start hphase hopen =>
      rcases (carries_opening (E := fun _ => False) t ht).ok hopen with ⟨hopen', hw⟩
      exact ⟨.start hphase hopen', hw⟩
  | @next n u u' _ hit ih =>
      rcases ih fun m hm => hn m (Nat.lt_succ_of_lt hm) with ⟨hreach, hu⟩
      have hallows := hn n (Nat.lt_succ_self n)
      rcases (carries_iterate (E := fun _ => False) hallows (hle.allows hallows) u hu).ok hit with
        ⟨hit', hu'⟩
      exact ⟨hreach.next hit', hu'⟩

/-- A verdict of satisfiability comes before the limit is looked at. This is the one
    iteration that ends well at the limit itself. -/
theorem iterate_sat_withLimit {w v : Traced (Solver β α)}
    (hit : iterate n w = .ok (some true) v) :
    iterate n (w.map (withLimit limit)) = .ok (some true) (v.map (withLimit limit)) := by
  rw [iterate_eq] at hit ⊢
  rcases bind_eq_ok hit with ⟨r, u, hexchange, hconclude⟩
  -- A verdict is reached before the exchange has anything to conclude.
  have hr : r = .inl true ∧ u = v := by
    cases r with
    | inl sat =>
        cases hconclude
        exact ⟨rfl, rfl⟩
    | inr step =>
        rcases bind_eq_ok hconclude with ⟨_, _, _, hpure⟩
        cases hpure
  rcases hr with ⟨rfl, rfl⟩
  -- Had a variable been broken, the exchange would have gone on past the limit and could not have
  -- ended in this verdict.
  rcases bind_eq_ok hexchange with ⟨broken, u', hcheck, hrest⟩
  cases broken with
  | some broken =>
      rcases bind_eq_ok hrest with ⟨_, _, _, hrest⟩
      rcases bind_eq_ok hrest with ⟨_, _, _, hrest⟩
      rcases bind_eq_ok hrest with ⟨_, _, _, hrest⟩
      rcases bind_eq_ok hrest with ⟨entering, _, _, hrest⟩
      cases entering with
      | none =>
          rcases bind_eq_ok hrest with ⟨_, _, _, hpure⟩
          cases hpure
      | some entering =>
          rcases bind_eq_ok hrest with ⟨_, _, _, hpure⟩
          cases hpure
  | none =>
      cases hrest
      have hcarried : (onWorkspace Engine.checkBounds : Exec (Solver β α) _).Carries
          (Limited w.state.config.maxIterations) (fun _ => False) (withLimit limit) :=
        carries_onWorkspace _
      have hexchange' : exchange n (w.map (withLimit limit))
          = .ok (.inl true) (u.map (withLimit limit)) :=
        bind_ok ((hcarried w rfl).ok hcheck).1
      rw [bind_ok hexchange']
      rfl

end Carrying

/-! ### What is reported at the limit -/

section Statement

variable [Engine β α]

/-- Two solvers that report the same: the owners of rows and columns, values, roles and
    coefficients. They may differ in phase and history, as one of them may have been cut off
    and the other not. -/
structure Indistinct (u v : Traced (Solver β α)) : Prop where
  basis : u.state.basis = v.state.basis
  assignment : ∀ x, Exec.outcome (assignment x u) = Exec.outcome (assignment x v)
  role : ∀ x, Exec.outcome (role x u) = Exec.outcome (role x v)
  entry : ∀ r c, Exec.outcome (entry r c u) = Exec.outcome (entry r c v)

/-- The search came to an end by itself, with a verdict or with an error. -/
def Ended (r : EStateM.Result Stop (Traced (Solver β α)) Bool) : Prop :=
  (∃ sat u, r = .ok sat u) ∨ ∃ e u, r = .error (.error e) u

/-- The search ended before it made so many exchanges, or after so many with a
    satisfied system. -/
def EndsWithin (limit : Option Nat) (r : EStateM.Result Stop (Traced (Solver β α)) Bool) : Prop :=
  ∀ l, limit = some l → (Exec.final r).state.history.size < l ∨
    (Exec.final r).state.history.size = l ∧ Exec.outcome r = .ok true

/-- The search from `t` under a limit, by the one from `t'` under a larger limit:
    it ends as that one does if that one ends within the limit. Otherwise it
    stops at the limit, with the history up to there, and reports what the
    other solver reports at that moment. -/
structure Truncated (limit : Option Nat) (fuel : Nat) (t t' : Traced (Solver β α)) : Prop where
  within : EndsWithin limit (solve fuel t') →
    Exec.outcome (solve fuel t) = Exec.outcome (solve fuel t') ∧
      Exec.final (solve fuel t) = (Exec.final (solve fuel t')).map (withLimit limit)
  cut : ¬ EndsWithin limit (solve fuel t') → ∃ l u w, limit = some l ∧
    solve fuel t = .error (.error (.iterationLimit l)) u ∧
    u.state.history.toList = (Exec.final (solve fuel t')).state.history.toList.take l ∧
    Reaches t' l w ∧ Indistinct u w

end Statement

section Reports

variable [Engine β α] {Show : Workspace β α → Board α → Prop} {b : Board α}
  {u v : Traced (Solver β α)}

theorem outcome_assignment (hR : Engine.Reports Show) (h : Show u.state.workspace b) (x : Nat) :
    Exec.outcome (assignment x u)
      = Stop.orError ((Error.checkIndex x b.numVars).map fun _ => b.value x) := by
  have hreplies : (assignment x : Exec (Solver β α) α).Replies u.state
      ((Error.checkIndex x b.numVars).map fun _ => b.value x) fun _ => True := by
    unfold assignment onEngine onWorkspace Workspace.onEngine
    exact Exec.Replies.focus (Exec.Replies.focus ((hR.assignment _ b x h).mono fun _ _ => trivial))
  exact hreplies.outcome_eq

theorem outcome_solution (hR : Engine.Reports Show) (h : Show u.state.workspace b) :
    Exec.outcome (solution u) = .ok ((Array.range b.numCols).map b.value) := by
  have hcols : u.state.numCols = b.numCols := (hR.sized _ _ h).numCols
  have hreplies : (onEngine (BoundStore.assignments b.numCols) :
      Exec (Solver β α) (Array α)).Replies u.state (.ok ((Array.range b.numCols).map b.value))
      fun _ => True := by
    unfold onEngine onWorkspace Workspace.onEngine
    exact Exec.Replies.focus (Exec.Replies.focus ((hR.assignments _ b h).mono fun _ _ => trivial))
  rw [solution, bind_ok (show Exec.state u = .ok u.state u from rfl), hcols]
  exact hreplies.outcome_eq

theorem outcome_role (hR : Engine.Reports Show) (h : Show u.state.workspace b) (x : Nat) :
    Exec.outcome (role x u)
      = Stop.orError ((Error.checkIndex x b.numVars).map fun _ => b.role x) := by
  have hreplies : (role x : Exec (Solver β α) Role).Replies u.state
      ((Error.checkIndex x b.numVars).map fun _ => b.role x) fun _ => True := by
    unfold role onEngine onWorkspace Workspace.onEngine
    exact Exec.Replies.focus (Exec.Replies.focus ((hR.role _ b x h).mono fun _ _ => trivial))
  exact hreplies.outcome_eq

/-- The row is looked at before the column. -/
theorem outcome_entry (hR : Engine.Reports Show) (h : Show u.state.workspace b) (r c : Nat) :
    Exec.outcome (entry r c u) = Stop.orError (do
      Error.checkIndex r b.maxRows
      Error.checkIndex c b.numCols
      pure (b.coeff r c)) := by
  have hrows : u.state.maxRows = b.maxRows := (hR.sized _ _ h).maxRows
  have hcols : u.state.numCols = b.numCols := (hR.sized _ _ h).numCols
  rw [entry, bind_ok (show Exec.state u = .ok u.state u from rfl), hrows, hcols]
  -- Both indices are checked against the sizes of the solver before the engine is asked.
  unfold Error.checkIndex
  by_cases hr : r < b.maxRows
  · by_cases hc : c < b.numCols
    · have hreplies : (onWorkspace (Engine.entry r c) : Exec (Solver β α) α).Replies u.state
          (.ok (b.coeff r c)) fun _ => True :=
        Exec.Replies.focus ((hR.entry _ b r c h hr hc).mono fun _ _ => trivial)
      rw [if_pos hr, if_pos hc]
      exact hreplies.outcome_eq
    · rw [if_pos hr, if_neg hc]
      rfl
  · rw [if_neg hr]
    rfl

theorem value?_assignment (hR : Engine.Reports Show) (h : Show u.state.workspace b) {v : Nat}
    (hv : v < b.numVars) : Exec.value? (assignment v u) = some (b.value v) := by
  refine Exec.value?_of_outcome ?_
  rw [outcome_assignment hR h, Error.checkIndex_eq_ok_iff.mpr hv]
  rfl

theorem value?_entry (hR : Engine.Reports Show) (h : Show u.state.workspace b) {r c : Nat}
    (hr : r < b.maxRows) (hc : c < b.numCols) :
    Exec.value? (entry r c u) = some (b.coeff r c) := by
  refine Exec.value?_of_outcome ?_
  rw [outcome_entry hR h, Error.checkIndex_eq_ok_iff.mpr hr, Error.checkIndex_eq_ok_iff.mpr hc]
  rfl

/-- Two solvers whose engines show one board cannot be told apart. -/
theorem indistinct_of_show (hR : Engine.Reports Show) (hu : Show u.state.workspace b)
    (hv : Show v.state.workspace b) : Indistinct u v where
  basis := (hR.basis _ _ hu).trans (hR.basis _ _ hv).symm
  assignment x := (outcome_assignment hR hu x).trans (outcome_assignment hR hv x).symm
  role x := (outcome_role hR hu x).trans (outcome_role hR hv x).symm
  entry r c := (outcome_entry hR hu r c).trans (outcome_entry hR hv r c).symm

end Reports

/-! ### A search that is cut off -/

section Search

variable [Scalar α] [StrictScalar α] [Engine β α] {R : Engine.Reading β α} {b₀ : Board α}
  {limit limit' : Option Nat} {t w : Traced (Solver β α)} {n fuel : Nat}

/-- The last moment of a search that ends by itself: after the exchanges `l` it is at `w`,
    at the board `b`, and the iteration that begins there comes to a verdict or is over the
    limit. Two searches from the same board are compared at such moments, since before that
    they make the same exchanges. -/
structure EndsAt (R : Engine.Reading β α) (b₀ : Board α) (fuel : Nat) (t w : Traced (Solver β α))
    (l : List (Nat × Nat)) (b : Board α) : Prop where
  reaches : Reaches t l.length w
  bounded : l.length < fuel
  run : Board.Run R.sum b₀ l b
  stands : At R.Shows t.state w.state b l
  history : (Exec.final (solve fuel t)).state.history = stepsOf l
  last : (∃ sat v, b.next R.sum = .verdict sat ∧ iterate l.length w = .ok (some sat) v ∧
      solve fuel t = finish sat v) ∨
    ∃ l' v, t.state.config.maxIterations = some l' ∧ l' ≤ l.length ∧
      b.next R.sum ≠ .verdict true ∧ solve fuel t = halt (.error (.iterationLimit l')) v

/-- A search that ends comes to its end in the iteration after its last exchange,
    with a verdict or at its own limit. -/
theorem exists_endsAt (hv₀ : b₀.Valid) (hready : R.Ready t.state.workspace b₀)
    (hphase : t.state.phase = .building) (hhistory : t.state.history = #[])
    (hended : Ended (solve fuel t)) : ∃ w l b, EndsAt R b₀ fuel t w l b := by
  rcases solve_closing hphase fuel with ⟨e, u, hopen, -⟩ | ⟨n, w, hreach, hclosing⟩
  · exact absurd hopen (opening_gives R.follows hv₀ hready).not_error
  rcases hreach.at_board R.follows hv₀ hready with ⟨l, b, hrun, rfl, hat⟩
  have hcases := iterate_cases R.follows hat (hrun.valid hv₀)
  generalize hres : solve fuel t = r at hclosing hended
  cases hclosing with
  | @verdict sat v hfuel hit =>
      rcases hcases with ⟨sat', hnext, hgives⟩ | ⟨_, _, _, _, hgives⟩ | ⟨_, _, _, _, hstops⟩ |
        ⟨_, _, hstops⟩
      · rcases hgives.result hit with ⟨hsat, hat'⟩
        cases hsat
        refine ⟨w, l, b, hreach, hfuel, hrun, hat, ?_, .inl ⟨_, v, hnext, hit, hres⟩⟩
        rw [hres, history_finish, hat'.history, hhistory, Array.empty_append]
      · exact absurd (hgives.result hit).1 (by simp only [reduceCtorEq, not_false_eq_true])
      · exact absurd hit hstops.not_ok
      · exact absurd hit hstops.not_ok
  | @stopped e v hfuel hit =>
      rcases hcases with ⟨_, _, hgives⟩ | ⟨_, _, _, _, hgives⟩ | ⟨l', hmax, hle, hnext, hstops⟩ |
        ⟨o, _, hstops⟩
      · exact absurd hit hgives.not_error
      · exact absurd hit hgives.not_error
      · rcases hstops.error_eq hit with ⟨rfl, hat'⟩
        refine ⟨w, l, b, hreach, hfuel, hrun, hat, ?_, .inr ⟨l', v, hmax, hle, hnext, hres⟩⟩
        rw [hres, history_halt, hat'.history, hhistory, Array.empty_append]
      · rcases hstops.error_eq hit with ⟨rfl, -⟩
        -- An obstacle is no way to end.
        rcases hended with ⟨sat, u, hu⟩ | ⟨e, u, hu⟩ <;> cases o <;> cases hu
  | fuel hn =>
      rcases hended with ⟨sat, u, hu⟩ | ⟨e, u, hu⟩
      · cases hu
      · cases hu

/-- At a moment after which the search goes on the system is not satisfied. -/
theorem Reaches.next_ne_sat {m : Nat} {w' : Traced (Solver β α)} {l : List (Nat × Nat)}
    {b : Board α} (hv₀ : b₀.Valid) (h : Reaches t m w) (h' : Reaches t n w') (hlt : m < n)
    (hrun : Board.Run R.sum b₀ l b) (hm : l.length = m) (hat : At R.Shows t.state w.state b l) :
    b.next R.sum ≠ .verdict true := by
  intro hsat
  -- There is a next moment, so the iteration between them came back without a verdict.
  rcases h'.exists_of_le hlt with ⟨u, hu⟩
  cases hu with
  | @next _ w'' _ hw'' hit =>
      rw [h.unique hw'', ← hm] at *
      rcases iterate_cases R.follows hat (hrun.valid hv₀) with ⟨sat, -, hgives⟩ |
        ⟨_, _, _, hnext, -⟩ | ⟨_, _, _, hnext, -⟩ | ⟨_, _, hstops⟩
      · exact absurd (hgives.result hit).1 (by simp only [reduceCtorEq, not_false_eq_true])
      · rw [hsat] at hnext
        cases hnext
      · exact hnext hsat
      · exact absurd hit hstops.not_ok

omit [StrictScalar α] in
/-- At an earlier moment the history was shorter, and what is there was there. -/
theorem stepsOf_take (hhistory : t.state.history = #[]) {m : Nat} {w' : Traced (Solver β α)}
    {l l' : List (Nat × Nat)} {b b' : Board α} (hmn : m ≤ n) (h : Reaches t m w)
    (h' : Reaches t n w') (hat : At R.Shows t.state w.state b l)
    (hat' : At R.Shows t.state w'.state b' l') :
    (stepsOf l).toList = (stepsOf l').toList.take m := by
  -- A history is numbered from zero without gaps, so its beginning is determined by its length.
  rcases h.history with ⟨steps, hlen, heq, hsteps⟩
  rcases h'.history with ⟨steps', hlen', heq', hsteps'⟩
  rw [hat.history, hhistory, Array.empty_append, Array.empty_append] at heq
  rw [hat'.history, hhistory, Array.empty_append, Array.empty_append] at heq'
  rw [heq, heq', List.toList_toArray, List.toList_toArray]
  refine List.ext_getElem? fun i => ?_
  rw [List.getElem?_take]
  by_cases hi : i < m
  · rw [if_pos hi]
    refine Option.ext fun step => ?_
    rw [hsteps, hsteps']
    exact and_congr_left fun _ => iff_of_true hi (Nat.lt_of_lt_of_le hi hmn)
  · rw [if_neg hi, List.getElem?_eq_none (by omega)]

section AtEnd

variable {l l'' : List (Nat × Nat)} {b b'' : Board α} {w'' : Traced (Solver β α)} {k : Nat}

omit [StrictScalar α] in
theorem EndsAt.size_history (h : EndsAt R b₀ fuel t w l b) :
    (Exec.final (solve fuel t)).state.history.size = l.length := by
  rw [h.history, stepsOf, List.size_toArray, List.length_mapIdx]

omit [StrictScalar α] in
/-- A search that ends within a limit ends in the same way under it. What it leaves differs
    in the limit only. -/
theorem EndsAt.within (h : EndsAt R b₀ fuel t w l b) (hlimit : Limited limit' t.state)
    (hle : LimitLe limit limit') (hwithin : EndsWithin limit (solve fuel t)) :
    Exec.outcome (solve fuel (t.map (withLimit limit))) = Exec.outcome (solve fuel t) ∧
      Exec.final (solve fuel (t.map (withLimit limit)))
        = (Exec.final (solve fuel t)).map (withLimit limit) := by
  rw [EndsWithin, h.size_history] at hwithin
  -- Every iteration before the last one was allowed, and the last one either is allowed
  -- too or does not get to the comparison.
  have hallows : ∀ m < l.length, Allows limit m := by
    intro m hm k hk
    rcases hwithin k hk with hlt | ⟨heq, -⟩ <;> omega
  rcases h.reaches.withLimit hlimit hle hallows with ⟨hreach', hw⟩
  rcases h.last with ⟨sat, v, -, hit, hsolve⟩ | ⟨l', v, hmax, hle', -, hsolve⟩
  · have hit' : iterate l.length (w.map (withLimit limit))
        = .ok (some sat) (v.map (withLimit limit)) := by
      by_cases hn : Allows limit l.length
      · exact ((carries_iterate (E := fun _ => False) hn (hle.allows hn) w hw).ok hit).1
      · simp only [Allows, Classical.not_forall, Nat.not_lt] at hn
        rcases hn with ⟨k, hk, hkl⟩
        have hsat : Exec.outcome (solve fuel t) = .ok true := by
          rcases hwithin k hk with hlt | ⟨-, hsat⟩
          · omega
          · exact hsat
        rw [hsolve] at hsat
        have htrue : sat = true := Except.ok.inj hsat
        rw [htrue] at hit ⊢
        exact iterate_sat_withLimit hit
    rw [hreach'.solve_verdict h.bounded hit', hsolve]
    exact (carries_finish sat v rfl).outcome_final
  -- A search that was cut off by its own limit made more exchanges than this one allows.
  · have hn : Allows limit l.length := by
      intro k hk
      rcases hwithin k hk with hlt | ⟨-, hsat⟩
      · omega
      · rw [hsolve] at hsat
        cases hsat
    have hlt := hle.allows hn l' (hlimit.symm.trans hmax)
    omega

/-- Before its end, and at an end that is no solution, a search is not satisfied. -/
theorem EndsAt.next_ne_sat (h : EndsAt R b₀ fuel t w l b) (hv₀ : b₀.Valid)
    (hreach : Reaches t l''.length w'') (hrun : Board.Run R.sum b₀ l'' b'')
    (hat : At R.Shows t.state w''.state b'' l'') (hk : l''.length ≤ l.length)
    (hsat : l.length = l''.length → Exec.outcome (solve fuel t) ≠ .ok true) :
    b''.next R.sum ≠ .verdict true := by
  rcases Nat.lt_or_eq_of_le hk with hlt | heq
  · exact hreach.next_ne_sat hv₀ h.reaches hlt hrun rfl hat
  · rcases hrun.unique h.run heq with ⟨rfl, rfl⟩
    rcases h.last with ⟨sat, v, hnext, -, hsolve⟩ | ⟨_, _, _, _, hnext, _⟩
    · rw [hnext]
      rintro ⟨⟩
      exact hsat rfl (by rw [hsolve]; rfl)
    · exact hnext

/-- At its limit a search stops where the one that goes on was at that moment. It has looked
    for a broken variable before that, and this changes nothing that is reported. -/
theorem EndsAt.cut (h : EndsAt R b₀ fuel t w l b) (hv₀ : b₀.Valid)
    (hready : R.Ready t.state.workspace b₀) (hhistory : t.state.history = #[])
    (hlimit : Limited limit' t.state) (hle : LimitLe (some k) limit') (hk : k ≤ l.length)
    (hsat : l.length = k → Exec.outcome (solve fuel t) ≠ .ok true) :
    ∃ u v, solve fuel (t.map (withLimit (some k))) = .error (.error (.iterationLimit k)) u ∧
      u.state.history.toList = (Exec.final (solve fuel t)).state.history.toList.take k ∧
      Reaches t k v ∧ Indistinct u v := by
  -- The moment at which the limit is reached is one that the longer search passes.
  rcases h.reaches.exists_of_le hk with ⟨v, hv⟩
  rcases hv.at_board R.follows hv₀ hready with ⟨l'', b'', hrun, rfl, hat⟩
  have hallows : ∀ m < l''.length, Allows (some l''.length) m := by
    rintro m hm _ ⟨⟩
    exact hm
  rcases hv.withLimit hlimit hle hallows with ⟨hreach', -⟩
  -- Something is broken there, since the longer search went on or ended without satisfying the
  -- system; so the iteration looks at the limit, which has been reached.
  cases hbroken : b''.firstBroken with
  | none => exact absurd (Board.next_eq_sat_iff.mpr hbroken) (h.next_ne_sat hv₀ hv hrun hat hk hsat)
  | some leaving =>
      have hat' : At R.Shows (t.map (withLimit (some l''.length))).state
          (v.map (withLimit (some l''.length))).state b'' l'' :=
        ⟨hat.shows_board, congrArg (Config.withLimit · _) hat.config, hat.history⟩
      have hstops := iterate_limit R.follows hat' (hrun.valid hv₀) hbroken rfl (Nat.le_refl _)
      rcases hstops v.journal with ⟨s', j', hit, hat''⟩
      refine ⟨_, v, hreach'.solve_halt (Nat.lt_of_le_of_lt hk h.bounded) hit, ?_, hv,
        indistinct_of_show R.reportsShows hat''.shows_board hat.shows_board⟩
      have hsteps : s'.history = stepsOf l'' := by
        rw [hat''.history]
        exact (congrArg (· ++ stepsOf l'') hhistory).trans Array.empty_append
      rw [h.history]
      exact (congrArg Array.toList hsteps).trans
        (stepsOf_take hhistory hk hv h.reaches hat h.stands)

end AtEnd

/-- A search under a limit on any engine that follows the board. The two cases are the two
    parts of what it is to be truncated. -/
theorem truncated_of_solve (hv₀ : b₀.Valid) (hready : R.Ready t.state.workspace b₀)
    (hphase : t.state.phase = .building) (hhistory : t.state.history = #[])
    (hlimit : Limited limit' t.state) (hle : LimitLe limit limit')
    (hended : Ended (solve fuel t)) : Truncated limit fuel (t.map (withLimit limit)) t := by
  rcases exists_endsAt hv₀ hready hphase hhistory hended with ⟨w, l, b, h⟩
  refine ⟨h.within hlimit hle, fun hcut => ?_⟩
  simp only [EndsWithin, h.size_history, Classical.not_forall, not_or, not_and, Nat.not_lt] at hcut
  rcases hcut with ⟨k, rfl, hk, hsat⟩
  rcases h.cut hv₀ hready hhistory hlimit hle hk hsat with ⟨u, v, hsolve, hsteps, hreach, hsame⟩
  exact ⟨k, u, v, rfl, hsolve, hsteps, hreach, hsame⟩

end Search

/-! ### Making and building a solver -/

section Building

variable {limit limit' : Option Nat} {E : Stop → Prop}

theorem carries_ensureBuilding :
    (ensureBuilding : Exec (Solver β α) Unit).Carries (Limited limit') E (withLimit limit) := by
  refine .state (fun _ _ => rfl) fun s => ?_
  split
  · exact .stop _
  · exact .pure _

theorem carries_addConstraint (coeffs : Array α) :
    (addConstraint coeffs : Exec (Solver β α) Unit).Carries (Limited limit') E
      (withLimit limit) := by
  refine carries_ensureBuilding.bind fun _ => .state (fun _ _ => rfl) fun s => ?_
  refine Carries.bind (Composed.carries (S := fun act => act.Carries (Limited limit') E
    (withLimit limit)) id (.check _)) fun r => ?_
  exact Carries.bind (.update (fun _ _ => rfl) fun _ hs => hs) fun _ => .emit _

theorem carries_build [BoundStore β α] (calls : List (BuildCall α)) :
    (build calls : Exec (Solver β α) Unit).Carries (Limited limit') (fun _ => False)
      (withLimit limit) := by
  refine Composed.carries (S := fun act => act.Carries (Limited limit') (fun _ => False)
    (withLimit limit)) id (.forM (fun c => .step ?_) calls)
  refine .onError ?_ (fun _ => .pure _) fun _ _ h => h.elim
  cases c with
  | constraint coeffs => exact carries_addConstraint coeffs
  | bounds v e =>
      rw [call_bounds_eq]
      exact carries_ensureBuilding.bind fun _ => carries_onWorkspace _

/-- The limit is only kept when a solver is made. -/
theorem sequential_withLimit {σ : Type} [Scalar α] (maxRows numCols : Nat) (config : Config α)
    (limit limit' : Option Nat) :
    (sequential maxRows numCols (config.withLimit limit) : Exec σ _)
      = sequential maxRows numCols (config.withLimit limit') >>= fun s =>
        pure (s.withLimit limit) := by
  unfold sequential
  simp only [bind_assoc, pure_bind]
  rfl

theorem parallel_withLimit (maxRows numCols : Nat) (config : Config Binary32)
    (limit limit' : Option Nat) :
    parallel maxRows numCols (config.withLimit limit)
      = parallel maxRows numCols (config.withLimit limit') >>= fun s =>
        pure (s.withLimit limit) := by
  unfold parallel
  simp only [bind_assoc, pure_bind]
  rfl

/-- Two solvers with different limits that are given the same calls still differ
    by their limits alone. -/
theorem build_withLimit [BoundStore β α] {calls : List (BuildCall α)} {s : Solver β α} {j : Journal}
    {t t' : Traced (Solver β α)} (hs : Limited limit' s)
    (hbuild : build calls ⟨s.withLimit limit, j⟩ = .ok () t)
    (hbuild' : build calls ⟨s, j⟩ = .ok () t') :
    t = t'.map (withLimit limit) ∧ Limited limit' t'.state := by
  rcases (carries_build calls ⟨s, j⟩ hs).ok hbuild' with ⟨hmapped, hlimited⟩
  rw [show build calls ⟨s.withLimit limit, j⟩ = _ from hmapped] at hbuild
  cases hbuild
  exact ⟨rfl, hlimited⟩

end Building

end Solver

/-! ### Both engines -/

section Built

variable {maxRows numCols : Nat} {config : Config Binary32} {limit limit' : Option Nat}
  {calls : List (BuildCall Binary32)}

/-- Two solvers in the process that were made and given these calls in the same
    way, with these limits. -/
def Sequential.BuiltAlike (maxRows numCols : Nat) (config : Config Binary32)
    (limit limit' : Option Nat) (calls : List (BuildCall Binary32))
    (t t' : Traced (Solver (Sequential Binary32) Binary32)) : Prop :=
  ∃ (x : Traced Unit) (s s' : Solver (Sequential Binary32) Binary32) (u u' : Traced Unit)
    (j : Journal), Solver.sequential maxRows numCols (config.withLimit limit) x = .ok s u ∧
      Solver.build calls ⟨s, j⟩ = .ok () t ∧
      Solver.sequential maxRows numCols (config.withLimit limit') x = .ok s' u' ∧
      Solver.build calls ⟨s', j⟩ = .ok () t'

/-- Two solvers on the same host device that were made and given these calls in
    the same way, with these limits. -/
def Parallel.BuiltAlike (maxRows numCols : Nat) (config : Config Binary32)
    (limit limit' : Option Nat) (calls : List (BuildCall Binary32))
    (t t' : Traced (Solver (Attached Parallel) Binary32)) : Prop :=
  ∃ (host : HostDevice) (i j : Journal) (s s' : Solver Parallel Binary32) (u u' : Traced Device),
    Solver.parallel maxRows numCols (config.withLimit limit) ⟨.toHost host, i⟩ = .ok s u ∧
      Solver.build calls ⟨s.attach u.state, j⟩ = .ok () t ∧
      Solver.parallel maxRows numCols (config.withLimit limit') ⟨.toHost host, i⟩ = .ok s' u' ∧
      Solver.build calls ⟨s'.attach u'.state, j⟩ = .ok () t'

/-- On both engines a search under a limit is the beginning of the search under a larger
    limit that ends, and all of it if that one ends within the limit. The limit is looked at
    between the two scans, so a search that is satisfied after as many exchanges is not cut
    off. -/
theorem truncated_of_built (maxRows numCols : Nat) (config : Config Binary32)
    (limit limit' : Option Nat) (calls : List (BuildCall Binary32)) (fuel : Nat)
    (hle : Solver.LimitLe limit limit') :
    (∀ t t', Sequential.BuiltAlike maxRows numCols config limit limit' calls t t' →
      Solver.Ended (Solver.solve fuel t') → Solver.Truncated limit fuel t t') ∧
    ∀ t t', Parallel.BuiltAlike maxRows numCols config limit limit' calls t t' →
      Solver.Ended (Solver.solve fuel t') → Solver.Truncated limit fuel t t' := by
  have hrows := Problem.length_rows_ofCalls maxRows numCols calls
  have hv₀ := Problem.valid_board hrows config.tolerance
  constructor
  · rintro t t' ⟨x, s, s', u, u', j, hmake, hbuild, hmake', hbuild'⟩ hended
    rw [Solver.sequential_withLimit _ _ _ _ limit', Exec.bind_ok hmake'] at hmake
    cases hmake
    -- The two solvers are built by the same calls and differ in the limit only.
    have hlimited : Solver.Limited limit' s' := by
      rw [(Solver.fresh_of_sequential hmake').2]
      rfl
    rcases Solver.build_withLimit hlimited hbuild hbuild' with ⟨rfl, hlimited'⟩
    rcases Sequential.shows_of_build hmake' hbuild' with ⟨hshows, hphase, -, hhistory⟩
    exact Solver.truncated_of_solve (R := Sequential.reading) hv₀ hshows hphase hhistory hlimited'
      hle hended
  · rintro t t' ⟨host, i, j, s, s', u, u', hmake, hbuild, hmake', hbuild'⟩ hended
    rw [Solver.parallel_withLimit _ _ _ _ limit', Exec.bind_ok hmake'] at hmake
    cases hmake
    have hlimited : Solver.Limited limit' (s'.attach u.state) :=
      congrArg Config.maxIterations (Parallel.describes_of_parallel hmake').2.1
    rcases Solver.build_withLimit hlimited hbuild hbuild' with ⟨rfl, hlimited'⟩
    rcases Parallel.ready_of_build hmake' hbuild' with ⟨hready, hphase, hhistory⟩
    exact Solver.truncated_of_solve (R := Parallel.reading _) hv₀ hready hphase hhistory hlimited'
      hle hended

end Built

/-- The sum of two variables has to be at least three. -/
def raisingCalls : List (BuildCall Binary32) :=
  [.constraint #[⟨0x3f800000⟩, ⟨0x3f800000⟩], .bounds 2 (.lower (some ⟨0x40400000⟩))]

/-- This search makes one exchange. Without any it is cut off, and after one it is
    satisfied. -/
theorem truncated_of_built_raising :
    (Solver.LimitLe (some 0) none ∧ ∃ t t',
      Sequential.BuiltAlike 1 2 Config.standard (some 0) none raisingCalls t t' ∧
      Solver.Ended (Solver.solve 2 t') ∧ ¬ Solver.EndsWithin (some 0) (Solver.solve 2 t') ∧
      Solver.Truncated (some 0) 2 t t') ∧
    (Solver.LimitLe (some 1) none ∧ ∃ t t',
      Parallel.BuiltAlike 1 2 Config.standard (some 1) none raisingCalls t t' ∧
      Solver.Ended (Solver.solve 2 t') ∧ Solver.EndsWithin (some 1) (Solver.solve 2 t') ∧
      Solver.Truncated (some 1) 2 t t') := by
  have hle : ∀ limit, Solver.LimitLe limit none := fun _ _ hl => by cases hl
  constructor
  · refine ⟨hle _, ?_⟩
    -- The two solvers of a pair are evaluated by one statement about both limits.
    have hmake : ∀ limit ∈ [some 0, none], Exec.endsWith (Solver.sequential 1 2
        (Config.standard.withLimit limit) (⟨(), #[]⟩ : Traced Unit)) (fun s _ =>
          Exec.endsWith (Solver.build raisingCalls ⟨s, #[]⟩) fun _ t =>
            limit.isSome || Exec.endsWith (Solver.solve 2 t) fun _ v =>
              v.state.history.size == 1) = true := by decide +kernel
    rcases Exec.exists_of_endsWith (hmake (some 0) (by decide)) with ⟨s, u, hs, hrest⟩
    rcases Exec.exists_of_endsWith hrest with ⟨_, t, ht, -⟩
    rcases Exec.exists_of_endsWith (hmake none (by decide)) with ⟨s', u', hs', hrest'⟩
    rcases Exec.exists_of_endsWith hrest' with ⟨_, t', ht', hsolve⟩
    rcases Exec.exists_of_endsWith hsolve with ⟨sat, v, hv, hsize⟩
    have halike : Sequential.BuiltAlike 1 2 Config.standard (some 0) none raisingCalls t t' :=
      ⟨⟨(), #[]⟩, s, s', u, u', #[], hs, ht, hs', ht'⟩
    have hended : Solver.Ended (Solver.solve 2 t') := .inl ⟨sat, v, hv⟩
    refine ⟨t, t', halike, hended, fun hwithin => ?_,
      (truncated_of_built 1 2 Config.standard (some 0) none raisingCalls 2 (hle _)).1 t t' halike
        hended⟩
    rw [hv] at hwithin
    have hsize' : v.state.history.size = 1 := beq_iff_eq.mp hsize
    rcases hwithin 0 rfl with hlt | ⟨heq, -⟩
    · exact absurd hlt (Nat.not_lt_zero _)
    · exact absurd (hsize'.symm.trans heq) (by decide)
  · refine ⟨hle _, ?_⟩
    have hmake : ∀ limit ∈ [some 1, none], Exec.endsWith (Solver.parallel 1 2
        (Config.standard.withLimit limit) ⟨.toHost (.idle ⟨4, 1⟩), #[]⟩) (fun s u =>
          Exec.endsWith (Solver.build raisingCalls ⟨s.attach u.state, #[]⟩) fun _ t =>
            limit.isSome || Exec.endsWith (Solver.solve 2 t) fun sat v =>
              sat && v.state.history.size == 1) = true := by decide +kernel
    rcases Exec.exists_of_endsWith (hmake (some 1) (by decide)) with ⟨s, u, hs, hrest⟩
    rcases Exec.exists_of_endsWith hrest with ⟨_, t, ht, -⟩
    rcases Exec.exists_of_endsWith (hmake none (by decide)) with ⟨s', u', hs', hrest'⟩
    rcases Exec.exists_of_endsWith hrest' with ⟨_, t', ht', hsolve⟩
    rcases Exec.exists_of_endsWith hsolve with ⟨sat, v, hv, htest⟩
    rcases Bool.and_eq_true_iff.mp htest with ⟨rfl, hsize⟩
    have halike : Parallel.BuiltAlike 1 2 Config.standard (some 1) none raisingCalls t t' :=
      ⟨.idle ⟨4, 1⟩, #[], #[], s, s', u, u', hs, ht, hs', ht'⟩
    have hended : Solver.Ended (Solver.solve 2 t') := .inl ⟨true, v, hv⟩
    refine ⟨t, t', halike, hended, ?_,
      (truncated_of_built 1 2 Config.standard (some 1) none raisingCalls 2 (hle _)).2 t t' halike
        hended⟩
    rintro l ⟨⟩
    rw [hv]
    exact .inr ⟨beq_iff_eq.mp hsize, rfl⟩

end BoundedSimplex
