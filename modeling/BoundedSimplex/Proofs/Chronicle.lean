import BoundedSimplex.Proofs.Bookkeeping
import BoundedSimplex.Proofs.Logs
import BoundedSimplex.Proofs.Places
import BoundedSimplex.Proofs.Recorded

/-!
# Three Accounts of a Search

The history, the notices and the events of a search tell the same.

A search gives three accounts of itself. It keeps a history of its exchanges, it
tells an observer of each of them, and it writes events to the journal. Nothing
makes it do the three at once: an exchange is announced before it is looked for,
recorded after it was made, and told right after that, with the tables as they are
then. In between an iteration may end in one of four ways. Only one of them is an
exchange, and each of the others has to leave the accounts in step.

What an engine adds to the journal is left out, since its events are not those of a
search. So the accounts can be followed along the iterations, one piece for each
exchange and one piece at the end.

## Main definitions

* `Notice.ofExchange`, `Event.ofExchange`: What is told of one exchange.
* `Solver.Closes`: What is told at the end.
* `Solver.Tells`: What was told between two moments.
* `Solver.Chronicle`: The accounts of a whole search.

## Theorems

* `Solver.iterate_tells`: What an iteration tells.
* `Solver.Reaches.tells`: What was told up to a moment.
* `Solver.solve_tells`: What a search tells, and the launches it makes meanwhile.
* `search_accounts_agree`: The accounts of a search on both engines.
-/

namespace BoundedSimplex

/-- What an observer is told of an exchange: first which variable is broken, and then
    the exchange and the tables it led to. -/
def Notice.ofExchange (step : PivotStep) (basis : Basis) : List Notice :=
  [.broken step.iteration step.leaving, .pivot step basis]

/-- What a search writes of an exchange: the variable that was found broken, and then the
    two that were exchanged. -/
def Event.ofExchange (step : PivotStep) : List Event :=
  [.brokenVariable step.iteration step.leaving, .pivot step.iteration step.leaving step.entering]

namespace Solver

/-- The notices of some exchanges, with the tables after each of them. -/
def noticesOf (steps : List PivotStep) (bases : List Basis) : List Notice :=
  (steps.zip bases).flatMap fun q => Notice.ofExchange q.1 q.2

/-- The events of some exchanges. -/
def eventsOf (steps : List PivotStep) : List Event := steps.flatMap Event.ofExchange

theorem noticesOf_append {steps : List PivotStep} {bases : List Basis}
    (h : bases.length = steps.length) (step : PivotStep) (basis : Basis) :
    noticesOf (steps ++ [step]) (bases ++ [basis])
      = noticesOf steps bases ++ Notice.ofExchange step basis := by
  rw [noticesOf, List.zip_append h.symm, List.flatMap_append]
  exact congrArg _ (List.append_nil _)

theorem eventsOf_append (steps : List PivotStep) (step : PivotStep) :
    eventsOf (steps ++ [step]) = eventsOf steps ++ Event.ofExchange step := by
  rw [eventsOf, List.flatMap_append]
  exact congrArg _ (List.append_nil _)

/-- The tables right after each of some exchanges. -/
structure Pictures (b₀ : Basis) (maxRows numCols : Nat) (steps : List PivotStep)
    (bases : List Basis) : Prop where
  length : bases.length = steps.length
  each : ∀ (i : Nat) (basis : Basis), bases[i]? = some basis → basis.isConsistent = true ∧
    basis.Bijective maxRows numCols ∧ b₀.Replays (steps.take (i + 1)) basis

theorem Pictures.push {b₀ : Basis} {maxRows numCols : Nat} {steps : List PivotStep}
    {bases : List Basis} (h : Pictures b₀ maxRows numCols steps bases) {step : PivotStep}
    {basis : Basis} (hbasis : basis.Bijective maxRows numCols)
    (hreplays : b₀.Replays (steps ++ [step]) basis) :
    Pictures b₀ maxRows numCols (steps ++ [step]) (bases ++ [basis]) := by
  refine ⟨by rw [List.length_append, List.length_append, h.length]; rfl, fun i basis' hi => ?_⟩
  -- An old picture is still that of the steps before it, since a longer list has the same
  -- beginning.
  by_cases hlt : i < bases.length
  · rw [List.getElem?_append_left hlt] at hi
    rw [List.take_append_of_le_length (by rw [← h.length]; exact hlt)]
    exact h.each i basis' hi
  -- The new one is that of all the steps.
  · rw [List.getElem?_append_right (Nat.le_of_not_lt hlt)] at hi
    rcases List.getElem?_eq_some_iff.mp hi with ⟨hone, rfl⟩
    rw [List.length_singleton] at hone
    have hall : (steps ++ [step]).length ≤ i + 1 := by
      rw [List.length_append, List.length_singleton, ← h.length]
      omega
    rw [List.take_of_length_le hall]
    have hlast : [basis][i - bases.length] = basis := by
      simp only [Nat.lt_one_iff.mp hone, List.getElem_cons_zero]
    rw [hlast]
    exact ⟨Basis.isConsistent_iff.mpr ⟨hbasis.place_col, hbasis.place_row⟩, hbasis, hreplays⟩

/-- What is told at the end of a search that made `n` exchanges. There is one more broken
    variable if nothing suits it, and a verdict if there is one. Where the search is cut off
    only the limit is told, as an event, and an observer is told nothing. -/
inductive Closes (n : Nat) : Except Stop Bool → List Notice → List Event → Prop where
  | sat : Closes n (.ok true) [.verdict true n] [.solveFinished true n]
  | unsat (broken : Nat) : Closes n (.ok false) [.broken n broken, .verdict false n]
      [.brokenVariable n broken, .noSuitable n broken, .solveFinished false n]
  | limit (limit : Nat) : Closes n (.error (.error (.iterationLimit limit))) []
      [.solveAborted (.iterationLimit limit)]
  | stuck (o : Obstacle) : Closes n (.error o.stop) [] []
  | fuel : Closes n (.error .outOfFuel) [] []

open Exec

variable {β α γ : Type}

/-- What a search told between two moments: these notices if there is an observer, and these
    events. Meanwhile only launches of these sizes were noted. Nothing that was told before
    is taken back. -/
structure Tells (L : Workspace β α → List LaunchRecord) (P : LaunchSize → Prop)
    (ns : List Notice) (es : List Event) (t u : Traced (Solver β α)) : Prop where
  adds : Adds (fun s => L s.workspace) P es t u
  observed : u.state.observed = t.state.observed
  notices : u.state.notices.toList
    = t.state.notices.toList ++ if t.state.observed then ns else []

section Told

variable {L : Workspace β α → List LaunchRecord} {P : LaunchSize → Prop} {ns ns' : List Notice}
  {es es' : List Event} {t u v : Traced (Solver β α)}

namespace Tells

/-- Nothing is told to an observer. -/
theorem silent (adds : Adds (fun s => L s.workspace) P es t u)
    (observed : u.state.observed = t.state.observed) (notices : u.state.notices = t.state.notices) :
    Tells L P [] es t u := by
  refine ⟨adds, observed, ?_⟩
  rw [notices, ite_self, List.append_nil]

theorem refl (t : Traced (Solver β α)) : Tells L P [] [] t t := silent (.refl t) rfl rfl

theorem trans (h : Tells L P ns es t u) (h' : Tells L P ns' es' u v) :
    Tells L P (ns ++ ns') (es ++ es') t v := by
  refine ⟨h.adds.trans h'.adds, h'.observed.trans h.observed, ?_⟩
  rw [h'.notices, h.notices, h.observed, List.append_assoc]
  cases t.state.observed <;> rfl

/-- An operation of the engine tells nothing. -/
theorem onWorkspace {act : Exec (Workspace β α) γ}
    (h : act.Logs L P ⟨t.state.workspace, t.journal⟩) :
    Tells L P [] [] t (final (Solver.onWorkspace act t)) := by
  have hlogs : (Solver.onWorkspace act).Logs (fun s => L s.workspace) P t :=
    .focus h fun _ _ hnew => hnew
  have hkept : (final (Solver.onWorkspace act t)).state.observed = t.state.observed ∧
      (final (Solver.onWorkspace act t)).state.notices = t.state.notices := by
    unfold Solver.onWorkspace Exec.focus
    cases act ⟨t.state.workspace, t.journal⟩ <;> exact ⟨rfl, rfl⟩
  exact silent hlogs hkept.1 hkept.2

theorem emit {e : Event} (he : e.ofSearch = true) :
    Tells L P [] [e] t (final (Exec.emit e t)) := by
  refine silent (.of_same rfl ((Journal.ofSearch_push _ e).trans ?_)) rfl rfl
  rw [if_pos he]

theorem notify (n : Notice) : Tells L P [n] [] t (final (Solver.notify n t)) := by
  refine ⟨.of_same ?_ (List.append_nil _).symm, ?_, ?_⟩
  · show L (if t.state.observed = true then _ else _ : Solver β α).workspace = _
    split <;> rfl
  · show (if t.state.observed = true then _ else _ : Solver β α).observed = _
    split <;> rfl
  · show (if t.state.observed = true then _ else _ : Solver β α).notices.toList = _
    split
    · exact Array.toList_push
    · exact (List.append_nil _).symm

theorem checkLimit (n : Nat) : Tells L P [] [] t (final (Solver.checkLimit n t)) := by
  have hkept : final (Solver.checkLimit n t) = t := by
    unfold Solver.checkLimit
    rw [bind_ok (show Exec.state t = .ok t.state t from rfl)]
    cases t.state.config.maxIterations with
    | none => rfl
    | some limit =>
        dsimp only
        split <;> rfl
  rw [hkept]
  exact refl t

/-- A verdict is told with the number of exchanges. -/
theorem finish (sat : Bool) : Tells L P [.verdict sat t.state.history.size]
    [.solveFinished sat t.state.history.size] t (final (Solver.finish sat t)) := by
  let t' : Traced (Solver β α) := ⟨{ t.state with phase := .ofVerdict sat }, t.journal⟩
  have hphase : Tells L P [] [] t t' := .silent (.of_same rfl (List.append_nil _).symm) rfl rfl
  exact hphase.trans ((emit rfl).trans (notify (.verdict sat t.state.history.size)))

/-- And an error without it. -/
theorem abort (e : Error) : Tells L P [] [.solveAborted e] t (final (Solver.abort e t)) := by
  let t' : Traced (Solver β α) := ⟨{ t.state with phase := .aborted }, t.journal⟩
  have hphase : Tells L P [] [] t t' := .silent (.of_same rfl (List.append_nil _).symm) rfl rfl
  exact hphase.trans (emit rfl)

end Tells

/-! ### One iteration -/

/-- Begun at `t` the operation goes on as `rest` does at a moment that satisfies `Q`,
    and has told this by then. -/
def Recounts (L : Workspace β α → List LaunchRecord) (P : LaunchSize → Prop)
    (act : Exec (Solver β α) γ) (t : Traced (Solver β α)) (rest : Exec (Solver β α) γ)
    (Q : Solver β α → Prop) (ns : List Notice) (es : List Event) : Prop :=
  ∃ u, act t = rest u ∧ Q u.state ∧ Tells L P ns es t u

namespace Recounts

variable {δ : Type} {act : Exec (Solver β α) γ} {rest : Exec (Solver β α) δ}
  {f : γ → Exec (Solver β α) δ} {R : γ → Solver β α → Prop} {Q : Solver β α → Prop}

theorem refl (h : Q t.state) : Recounts L P rest t rest Q [] [] := ⟨t, rfl, h, .refl t⟩

/-- Something may come before it. -/
theorem after (h : act.Gives t.state R) (ht : Tells L P ns es t (final (act t)))
    (hf : ∀ a u, R a u.state → Recounts L P (f a) u rest Q ns' es') :
    Recounts L P (act >>= f) t rest Q (ns ++ ns') (es ++ es') := by
  rcases h t.journal with ⟨a, s, j, hrun, hR⟩
  rw [show act t = _ from hrun] at ht
  rcases hf a ⟨s, j⟩ hR with ⟨v, hrest, hQ, htells⟩
  exact ⟨v, (bind_ok hrun).trans hrest, hQ, ht.trans htells⟩

/-- An event of the search. -/
theorem emit {e : Event} {f : Unit → Exec (Solver β α) δ} (he : e.ofSearch = true)
    (hf : ∀ u, u.state = t.state → Recounts L P (f ()) u rest Q ns es) :
    Recounts L P (Exec.emit e >>= f) t rest Q ns (e :: es) := by
  rcases hf ⟨t.state, t.journal.push e⟩ rfl with ⟨v, hrun, hQ, htells⟩
  exact ⟨v, hrun, hQ, (Tells.emit he).trans htells⟩

/-- What stops is not followed by anything. -/
theorem stops {e : Stop} (h : act.Stops t.state e Q) (ht : Tells L P ns es t (final (act t))) :
    Recounts L P (act >>= f) t (throw e) Q ns es := by
  rcases h t.journal with ⟨s, j, hrun, hQ⟩
  rw [show act t = _ from hrun] at ht
  exact ⟨⟨s, j⟩, bind_error hrun, hQ, ht⟩

/-- What is known of the rest is known of the whole. -/
theorem trans {act : Exec (Solver β α) δ} {rest' : Exec (Solver β α) δ} {Q' : Solver β α → Prop}
    (h : Recounts L P act t rest Q ns es)
    (h' : ∀ u, Q u.state → Recounts L P rest u rest' Q' ns' es') :
    Recounts L P act t rest' Q' (ns ++ ns') (es ++ es') := by
  rcases h with ⟨u, hrun, hQ, htells⟩
  rcases h' u hQ with ⟨v, hrun', hQ', htells'⟩
  exact ⟨v, hrun.trans hrun', hQ', htells.trans htells'⟩

end Recounts

end Told

section Search

open Board

variable [Scalar α] [Engine β α] {sum : Summation α} {obstacle : Nat → Option Obstacle}
  {Ready Shows : Workspace β α → Board α → Prop} {L : Workspace β α → List LaunchRecord}
  {P : LaunchSize → Prop} {s₀ : Solver β α} {t u v : Traced (Solver β α)} {b b₀ : Board α}
  {l : List (Nat × Nat)}

section Iteration

variable (hF : Engine.Follows sum obstacle Ready Shows) (hL : Engine.Logs L P Ready Shows)
  (hat : At Shows s₀ t.state b l) (hv : b.Valid)
include hF hL hat hv

theorem iterate_recounts_sat (h : b.firstBroken = none) :
    Recounts L P (iterate l.length) t (pure (some true)) (At Shows s₀ · b l) [] [] := by
  refine .after (checkBounds_gives hF hat hv) (.onWorkspace (hL.checkBounds _ b hat.shows_board)) ?_
  rintro _ u ⟨rfl, hat'⟩
  rw [h]
  exact .refl hat'

/-- At the limit nothing is told. -/
theorem iterate_recounts_limit {leaving limit : Nat} (h : b.firstBroken = some leaving)
    (hmax : s₀.config.maxIterations = some limit) (hle : limit ≤ l.length) :
    Recounts L P (iterate l.length) t (throw (.error (.iterationLimit limit)))
      (At Shows s₀ · b l) [] [] := by
  refine .after (checkBounds_gives hF hat hv) (.onWorkspace (hL.checkBounds _ b hat.shows_board)) ?_
  rintro _ u ⟨rfl, hat'⟩
  rw [h]
  exact .stops (checkLimit_stops hat' hmax hle) (.checkLimit _)

variable (hlim : s₀.BelowLimit l.length)
include hlim

/-- A broken variable is told before anything is done about it. -/
theorem iterate_recounts_unsat {leaving : Nat} (h : b.firstBroken = some leaving)
    (hs : b.firstSuitable leaving = none) :
    Recounts L P (iterate l.length) t (pure (some false)) (At Shows s₀ · b l)
      [.broken l.length leaving]
      [.brokenVariable l.length leaving, .noSuitable l.length leaving] := by
  refine .after (checkBounds_gives hF hat hv) (.onWorkspace (hL.checkBounds _ b hat.shows_board)) ?_
  rintro _ u₁ ⟨rfl, hat₁⟩
  rw [h]
  refine .after (checkLimit_gives hat₁ hlim) (.checkLimit _) fun _ u₂ hat₂ => ?_
  -- The event and the notice of the broken variable are given here, before a column is looked
  -- for.
  refine .emit rfl fun u₃ hu₃ => ?_
  rw [← hu₃] at hat₂
  refine .after (hat₂.notify _) (.notify _) fun _ u₄ hat₃ => ?_
  refine .after (hat₃.onWorkspace (P := fun r b' => r = none ∧ b' = b)
    ((hF.findNone _ b leaving hat₃.shows_board hv h hs).mono
      fun r w' hr => ⟨b, ⟨hr.1, rfl⟩, hr.2⟩))
    (.onWorkspace (hL.findSuitable _ b leaving hat₃.shows_board)) ?_
  rintro _ u₅ ⟨_, ⟨rfl, rfl⟩, hat₄⟩
  -- And this is the event of the verdict. No notice goes with it: the loop gives it at the end.
  refine .emit rfl fun u₆ hu₆ => .refl ?_
  rw [hu₆]
  exact hat₄

variable [StrictScalar α] {leaving entering : Nat} (h : b.Exchanges leaving entering)
include h

variable (hbasis : ∀ w b', Shows w b' → w.basis = b'.basis)
include hbasis

/-- An exchange is told with the tables right after it, and before the rows are
    recomputed. -/
theorem iterate_recounts_exchange : Recounts L P (iterate l.length) t
    (Solver.onWorkspace Engine.updateAssignment >>= fun _ => pure none)
    (At Shows s₀ · ((b.corrected leaving entering).exchanged leaving entering)
      (l ++ [(leaving, entering)]))
    (Notice.ofExchange ⟨l.length, leaving, entering⟩ (b.after sum leaving entering).basis)
    (Event.ofExchange ⟨l.length, leaving, entering⟩) := by
  -- The steps one by one: each either moves the board or tells something, never both.
  refine .after (checkBounds_gives hF hat hv) (.onWorkspace (hL.checkBounds _ b hat.shows_board)) ?_
  rintro _ u₁ ⟨rfl, hat₁⟩
  rw [h.broken]
  refine .after (checkLimit_gives hat₁ hlim) (.checkLimit _) fun _ u₂ hat₂ => ?_
  refine .emit rfl fun u₃ hu₃ => ?_
  rw [← hu₃] at hat₂
  refine .after (hat₂.notify _) (.notify _) fun _ u₄ hat₃ => ?_
  refine .after (hat₃.onWorkspace (P := fun r b' => r = some entering ∧
    b' = b.corrected leaving entering)
    ((hF.findSome _ b leaving entering hat₃.shows_board hv h).mono
      fun r w' hr => ⟨_, ⟨hr.1, rfl⟩, hr.2⟩))
    (.onWorkspace (hL.findSuitable _ b leaving hat₃.shows_board)) ?_
  rintro _ u₅ ⟨_, ⟨rfl, rfl⟩, hat₄⟩
  refine .after (hat₄.onWorkspace (P := fun _ b' =>
    b' = (b.corrected leaving entering).exchanged leaving entering)
    ((hF.pivot _ b leaving entering hv h hat₄.shows_board).mono fun r w' hr => ⟨_, rfl, hr⟩))
    (.onWorkspace (hL.pivot _ _ leaving entering hat₄.shows_board ?_ hv.numRows_le)) ?_
  · exact Nat.zero_lt_of_lt (h.row_lt hv)
  rintro _ u₆ ⟨_, rfl, hat₅⟩
  -- From here on the tables are those after the exchange, and so the observer sees them.
  refine .emit rfl fun u₇ hu₇ => ?_
  rw [← hu₇] at hat₅
  refine .after (Gives.update (P := fun _ s => At Shows s₀ s _ _) (hat₅.push leaving entering))
    (.silent (.of_same rfl (List.append_nil _).symm) rfl rfl) fun _ u₈ hat₆ => ?_
  refine .after (R := fun basis s => basis =
    ((b.corrected leaving entering).exchanged leaving entering).basis ∧ At Shows s₀ s _ _)
    (Exec.Yields.view.gives (Gives.pure ⟨hbasis _ _ hat₆.shows_board, hat₆⟩)) (.refl u₈) ?_
  rintro _ u₉ ⟨rfl, hat₇⟩
  exact .after (hat₇.notify _) (.notify _) fun _ u₁₀ hat₈ => .refl hat₈

/-- Nothing is told of the rows. -/
theorem iterate_recounts_next (hfree : obstacle b.numCols = none) :
    Recounts L P (iterate l.length) t (pure none)
      (At Shows s₀ · (b.after sum leaving entering) (l ++ [(leaving, entering)]))
      (Notice.ofExchange ⟨l.length, leaving, entering⟩ (b.after sum leaving entering).basis)
      (Event.ofExchange ⟨l.length, leaving, entering⟩) := by
  refine (iterate_recounts_exchange hF hL hat hv hlim h hbasis).trans fun u hat' => ?_
  refine .after (hat'.onWorkspace (P := fun _ b' => b' = b.after sum leaving entering)
    ((hF.update _ _ hat'.shows_board (hv.exchangedAfter h) hfree).mono
      fun _ w' hw => ⟨_, rfl, hw⟩)) (.onWorkspace (hL.update _ _ hat'.shows_board)) ?_
  rintro _ u' ⟨_, rfl, hat''⟩
  exact .refl hat''

/-- Where rows cannot be summed the exchange has been told. -/
theorem iterate_recounts_stuck {o : Obstacle} (hstuck : obstacle b.numCols = some o) :
    Recounts L P (iterate l.length) t (throw o.stop)
      (·.history = s₀.history ++ stepsOf (l ++ [(leaving, entering)]))
      (Notice.ofExchange ⟨l.length, leaving, entering⟩ (b.after sum leaving entering).basis)
      (Event.ofExchange ⟨l.length, leaving, entering⟩) := by
  refine (iterate_recounts_exchange hF hL hat hv hlim h hbasis).trans fun u hat' => ?_
  refine .stops (Exec.Stops.focus ?_) (.onWorkspace (hL.update _ _ hat'.shows_board))
  exact (hF.updateStuck _ _ o hat'.shows_board (hv.exchangedAfter h) hstuck
    (Nat.zero_lt_of_lt (h.row_lt hv))).mono fun _ _ => hat'.history

end Iteration

variable [StrictScalar α]

/-- What an iteration told, by how it ended. -/
inductive Iterated (L : Workspace β α → List LaunchRecord) (P : LaunchSize → Prop)
    (sum : Summation α) (Shows : Workspace β α → Board α → Prop) (s₀ : Solver β α)
    (t : Traced (Solver β α)) (b : Board α) (l : List (Nat × Nat)) :
    EStateM.Result Stop (Traced (Solver β α)) (Option Bool) → Prop where
  | sat {u : Traced (Solver β α)} : At Shows s₀ u.state b l → Tells L P [] [] t u →
      Iterated L P sum Shows s₀ t b l (.ok (some true) u)
  | unsat {u : Traced (Solver β α)} (broken : Nat) : At Shows s₀ u.state b l →
      Tells L P [.broken l.length broken]
        [.brokenVariable l.length broken, .noSuitable l.length broken] t u →
      Iterated L P sum Shows s₀ t b l (.ok (some false) u)
  | exchange {u : Traced (Solver β α)} {leaving entering : Nat} {b' : Board α} :
      b.next sum = .exchange leaving entering b' →
      At Shows s₀ u.state b' (l ++ [(leaving, entering)]) →
      Tells L P (Notice.ofExchange ⟨l.length, leaving, entering⟩ b'.basis)
        (Event.ofExchange ⟨l.length, leaving, entering⟩) t u →
      Iterated L P sum Shows s₀ t b l (.ok none u)
  | limit {u : Traced (Solver β α)} (limit : Nat) : At Shows s₀ u.state b l →
      Tells L P [] [] t u →
      Iterated L P sum Shows s₀ t b l (.error (.error (.iterationLimit limit)) u)
  | stuck {o : Obstacle} {e : Stop} {u : Traced (Solver β α)} {leaving entering : Nat}
      {b' : Board α} : e = o.stop → b.next sum = .exchange leaving entering b' →
      u.state.history = s₀.history ++ stepsOf (l ++ [(leaving, entering)]) →
      Tells L P (Notice.ofExchange ⟨l.length, leaving, entering⟩ b'.basis)
        (Event.ofExchange ⟨l.length, leaving, entering⟩) t u →
      Iterated L P sum Shows s₀ t b l (.error e u)

/-- What an iteration tells, in all five ways it can end. Each case rests on the account of
    the operations it is made of; here they are only put side by side. -/
theorem iterate_tells (hF : Engine.Follows sum obstacle Ready Shows)
    (hL : Engine.Logs L P Ready Shows) (hbasis : ∀ w b', Shows w b' → w.basis = b'.basis)
    (hat : At Shows s₀ t.state b l) (hv : b.Valid) :
    Iterated L P sum Shows s₀ t b l (iterate l.length t) := by
  -- The cases of `Iterated`, in the order in which the iteration tests for them.
  cases hb : b.firstBroken with
  | none =>
      rcases iterate_recounts_sat hF hL hat hv hb with ⟨u, hrun, hat', htells⟩
      rw [hrun]
      exact .sat hat' htells
  | some leaving =>
      by_cases hlim : s₀.BelowLimit l.length
      · cases hs : b.firstSuitable leaving with
        | none =>
            rcases iterate_recounts_unsat hF hL hat hv hlim hb hs with ⟨u, hrun, hat', htells⟩
            rw [hrun]
            exact .unsat leaving hat' htells
        | some entering =>
            have hex : b.Exchanges leaving entering := ⟨hb, hs⟩
            have hnext : b.next sum = .exchange leaving entering _ :=
              next_eq_exchange_iff.mpr ⟨hex, rfl⟩
            cases hobstacle : obstacle b.numCols with
            | none =>
                rcases iterate_recounts_next hF hL hat hv hlim hex hbasis hobstacle with
                  ⟨u, hrun, hat', htells⟩
                rw [hrun]
                exact .exchange hnext hat' htells
            | some o =>
                rcases iterate_recounts_stuck hF hL hat hv hlim hex hbasis hobstacle with
                  ⟨u, hrun, hhistory, htells⟩
                rw [hrun]
                exact .stuck rfl hnext hhistory htells
      · simp only [BelowLimit, Classical.not_forall, Nat.not_lt] at hlim
        rcases hlim with ⟨limit, hmax, hle⟩
        rcases iterate_recounts_limit hF hL hat hv hb hmax hle with ⟨u, hrun, hat', htells⟩
        rw [hrun]
        exact .limit limit hat' htells

/-! ### Whole searches -/

/-- What was told of the exchanges `l` between two moments, and the tables that were shown.
    All three accounts are functions of the same list, so they cannot disagree. -/
structure Accounts (L : Workspace β α → List LaunchRecord) (P : LaunchSize → Prop)
    (b₀ : Board α) (l : List (Nat × Nat)) (bases : List Basis) (t u : Traced (Solver β α)) :
    Prop where
  pictures : Pictures b₀.basis b₀.maxRows b₀.numCols (stepsOf l).toList bases
  tells : Tells L P (noticesOf (stepsOf l).toList bases) (eventsOf (stepsOf l).toList) t u

omit [Engine β α] in
/-- One exchange more. -/
theorem Accounts.push {bases : List Basis} (h : Accounts L P b₀ l bases t u) (hv₀ : b₀.Valid)
    {leaving entering : Nat} {b' : Board α} (hrun : Run sum b₀ (l ++ [(leaving, entering)]) b')
    (ht : Tells L P (Notice.ofExchange ⟨l.length, leaving, entering⟩ b'.basis)
      (Event.ofExchange ⟨l.length, leaving, entering⟩) u v) :
    Accounts L P b₀ (l ++ [(leaving, entering)]) (bases ++ [b'.basis]) t v := by
  -- The basis that the callback was shown is that of the board, which is a bijection and what the
  -- steps up to here make of the first one.
  have hbasis := (hrun.valid hv₀).basis.bijective
  rw [hrun.same.maxRows, hrun.same.numCols] at hbasis
  have hreplays := hrun.replays hv₀
  have hsteps : (stepsOf (l ++ [(leaving, entering)])).toList
      = (stepsOf l).toList ++ [⟨l.length, leaving, entering⟩] := by
    rw [stepsOf_append, Array.toList_push]
  rw [hsteps] at hreplays
  refine ⟨?_, ?_⟩
  · rw [hsteps]
    exact h.pictures.push hbasis hreplays
  · rw [hsteps, noticesOf_append h.pictures.length, eventsOf_append]
    exact h.tells.trans ht

section Following

variable (hF : Engine.Follows sum obstacle Ready Shows) (hL : Engine.Logs L P Ready Shows)
include hL

omit [StrictScalar α] in
/-- What comes before the first iteration is not told. -/
theorem opening_tells (hready : Ready t.state.workspace b₀) :
    Tells L P [] [] t (final (opening t)) := by
  let e : Event :=
    .solveStarted t.state.numRows t.state.numCols (Engine.name t.state.workspace.engine)
  have hstarted : Tells L P [] [] t ⟨t.state, t.journal.push e⟩ :=
    .silent (Logs.emit rfl) rfl rfl
  exact hstarted.trans (.onWorkspace (hL.prepare _ b₀ hready))

variable (hbasis : ∀ w b', Shows w b' → w.basis = b'.basis) (hv₀ : b₀.Valid)
  (hready : Ready t.state.workspace b₀)
include hF hbasis hv₀ hready

/-- What was told up to a moment of a search: one piece for each exchange. The induction is
    on the moments, and an iteration appends one piece to each of the three accounts. -/
theorem Reaches.tells {n : Nat} (h : Reaches t n u) : ∃ l b bases, Run sum b₀ l b ∧
    l.length = n ∧ At Shows t.state u.state b l ∧ Accounts L P b₀ l bases t u := by
  -- Induction on the iterations passed. An iteration that came back without a verdict made one
  -- exchange, so the account grows by one piece.
  induction h with
  | start _ hopen =>
      have htells := opening_tells hL hready
      rw [hopen] at htells
      exact ⟨[], b₀, [], .start, rfl, (opening_gives hF hv₀ hready).result hopen,
        ⟨rfl, fun _ _ hi => by cases hi⟩, htells⟩
  | @next n u u' _ hit ih =>
      rcases ih with ⟨l, b, bases, hrun, rfl, hat, haccounts⟩
      have htells := iterate_tells hF hL hbasis hat (hrun.valid hv₀)
      rw [hit] at htells
      cases htells with
      | exchange hnext hat' htells =>
          refine ⟨_, _, _, hrun.step hnext, ?_, hat', haccounts.push hv₀ (hrun.step hnext) htells⟩
          rw [List.length_append, List.length_singleton]

/-- What a search tells: its exchanges, and then how it ended. The last iteration is no
    moment of the search, so it is told apart from the others. -/
theorem solve_tells (hphase : t.state.phase = .building) (hhistory : t.state.history = #[])
    (fuel : Nat) : ∃ l bases ns es w, (final (solve fuel t)).state.history = stepsOf l ∧
      Accounts L P b₀ l bases t w ∧ Closes l.length (outcome (solve fuel t)) ns es ∧
      Tells L P ns es w (final (solve fuel t)) := by
  rcases solve_closing hphase fuel with ⟨e, u, hopen, -⟩ | ⟨n, w, hreach, hclosing⟩
  · exact absurd hopen (opening_gives hF hv₀ hready).not_error
  -- The last iteration is the one that tells how the search ended.
  rcases hreach.tells hF hL hbasis hv₀ hready with ⟨l, b, bases, hrun, rfl, hat, haccounts⟩
  have htells := iterate_tells hF hL hbasis hat (hrun.valid hv₀)
  have hsteps : ∀ {h : Array PivotStep} {l : List (Nat × Nat)},
      h = t.state.history ++ stepsOf l → h = stepsOf l := by
    intro h l heq
    rw [heq, hhistory, Array.empty_append]
  generalize solve fuel t = r at hclosing
  cases hclosing with
  | @verdict sat v _ hit =>
      rw [hit] at htells
      have hfinish := Tells.finish (L := L) (P := P) (t := v) sat
      have hstands : At Shows t.state v.state b l := by
        cases htells with
        | sat hat' _ => exact hat'
        | unsat _ hat' _ => exact hat'
      have hhistory' := hsteps hstands.history
      have hsize : v.state.history.size = l.length := by
        rw [hhistory', stepsOf, List.size_toArray, List.length_mapIdx]
      rw [hsize] at hfinish
      refine ⟨l, bases, ?_⟩
      cases htells with
      | sat _ htells =>
          exact ⟨_, _, w, (history_finish true v).trans hhistory', haccounts, .sat,
            htells.trans hfinish⟩
      | unsat broken _ htells =>
          exact ⟨_, _, w, (history_finish false v).trans hhistory', haccounts, .unsat broken,
            htells.trans hfinish⟩
  | @stopped e v _ hit =>
      rw [hit] at htells
      cases htells with
      | limit limit hat' htells =>
          refine ⟨l, bases, [], _, w, ?_, haccounts, .limit limit, htells.trans (.abort _)⟩
          exact (history_halt _ v).trans (hsteps hat'.history)
      -- The rows come after the exchange, which is then told with the others.
      | @stuck o _ _ leaving entering b' he hnext hhistory' htells =>
          subst he
          refine ⟨_, _, [], [], v, (history_halt _ v).trans (hsteps hhistory'),
            haccounts.push hv₀ (hrun.step hnext) htells, ?_⟩
          cases o with
          | endless => exact ⟨.stuck .endless, .refl v⟩
          | overflow => exact ⟨.stuck .overflow, .refl v⟩
  | fuel _ => exact ⟨l, bases, [], [], w, hsteps hat.history, haccounts, .fuel, .refl w⟩

end Following

end Search

/-- The three accounts of a search that began at `t`, from its result: the history, the
    notices of an observer and the events of the journal. The tables after each exchange are
    `bases`, and in the end these notices and events are told. -/
structure Chronicle (maxRows numCols : Nat) (t : Traced (Solver β α))
    (r : EStateM.Result Stop (Traced (Solver β α)) Bool) (bases : List Basis) (ns : List Notice)
    (es : List Event) : Prop where
  numbers : ∀ (i : Nat) (step : PivotStep), (final r).state.history[i]? = some step →
    step.iteration = i
  pictures : Pictures (.initial maxRows numCols) maxRows numCols (final r).state.history.toList
    bases
  closes : Closes (final r).state.history.size (outcome r) ns es
  notices : (final r).state.notices.toList = t.state.notices.toList ++
    (noticesOf (final r).state.history.toList bases ++ ns)
  events : (final r).journal.ofSearch = t.journal.ofSearch ++
    (eventsOf (final r).state.history.toList ++ es)

section Stages

variable [Scalar α] [StrictScalar α] [Engine β α] {R : Engine.Reading β α}
  {L : Workspace β α → List LaunchRecord} {P : LaunchSize → Prop} {maxRows numCols : Nat}
  {c : Config α} {t : Traced (Solver β α)}

/-- A session that ends leaves the solver at a stage. -/
theorem Stage.after_session {ops : List (Operation α)} {answers : List (Except Error (Answer α))}
    {u : Traced (Solver β α)} (h : Stage R R maxRows numCols c t.state t.state)
    (hrun : session ops t = .ok answers u) : Stage R R maxRows numCols c u.state u.state := by
  rcases session_stage ops h with ⟨e, hcut, -⟩ | ⟨answers', u', hok, -, hstage⟩
  · rw [hrun] at hcut
    cases hcut
  · rw [hrun] at hok
    cases hok
    exact hstage

/-- A solver that has not searched tells its search, and what it launches meanwhile. -/
theorem Stage.tells (hL : Engine.Logs L P R.Ready R.Shows)
    (h : Stage R R maxRows numCols c t.state t.state) (hphase : t.state.phase = .building)
    (fuel : Nat) : ∃ (p : Problem α) (l : List (Nat × Nat)) (bases : List Basis)
      (ns : List Notice) (es : List Event) (w : Traced (Solver β α)),
      p.HasSize maxRows numCols ∧ (final (solve fuel t)).state.history = stepsOf l ∧
      Accounts L P (p.board c.tolerance) l bases t w ∧
      Closes l.length (outcome (solve fuel t)) ns es ∧
      Tells L P ns es w (final (solve fuel t)) := by
  cases h with
  | @building p f hp _ _ hhistory htwins =>
      rcases solve_tells R.follows hL R.reportsShows.basis (Problem.valid_board hp.rows _)
        htwins.left hphase (htwins.histories.1.trans hhistory) fuel with
        ⟨l, bases, ns, es, w, hrest⟩
      exact ⟨p, l, bases, ns, es, w, hp, hrest⟩
  -- A solver that has searched is not in the building phase any more.
  | finished _ hne hsearched =>
      rcases hsearched with ⟨-, htwins, -, -⟩
      exact absurd (htwins.phases.1.symm.trans hphase) hne

/-- The three accounts of a first search. The pictures come from the callback, the closing
    from the verdict and the events from the journal; the history of the solver is what ties
    them together. -/
theorem Stage.chronicle (hL : Engine.Logs L P R.Ready R.Shows)
    (h : Stage R R maxRows numCols c t.state t.state) (hsize : maxRows + numCols < UInt32.size)
    (hphase : t.state.phase = .building) (hobserved : t.state.observed = true) (fuel : Nat) :
    ∃ bases ns es, Chronicle maxRows numCols t (solve fuel t) bases ns es := by
  rcases h.tells hL hphase fuel with
    ⟨p, l, bases, ns, es, w, hp, hhistory, haccounts, hcloses, htold⟩
  have htells := haccounts.tells.trans htold
  have hnotices := htells.notices
  rw [if_pos hobserved] at hnotices
  have hpictures := haccounts.pictures
  -- Nothing was exchanged before the search, so the board of the problem has the basis of a new
  -- solver.
  have hinitial : (p.board c.tolerance).basis = Basis.initial maxRows numCols := by
    rw [Basis.initial_eq_ofDimensions (by omega) (by omega), ← hp.maxRows, ← hp.numCols]
    rfl
  rw [hinitial, show (p.board c.tolerance).maxRows = maxRows from hp.maxRows,
    show (p.board c.tolerance).numCols = numCols from hp.numCols] at hpictures
  have hlength : (stepsOf l).size = l.length := by
    rw [stepsOf, List.size_toArray, List.length_mapIdx]
  refine ⟨bases, ns, es, ?_⟩
  -- From here on only the history, the verdict and the records of the run are used, not the run
  -- itself.
  generalize solve fuel t = r at hhistory hcloses hnotices htells
  rw [← hhistory] at hpictures hnotices hlength
  have hevents := htells.adds.events
  rw [← hhistory] at hevents
  rw [← hlength] at hcloses
  refine ⟨fun i step hi => ?_, hpictures, hcloses, hnotices, hevents⟩
  rw [hhistory, stepsOf, List.getElem?_toArray, List.getElem?_mapIdx] at hi
  rcases Option.map_eq_some_iff.mp hi with ⟨q, -, rfl⟩
  rfl

end Stages

end Solver

/-! ### Both engines -/

section Made

variable {info : DeviceInfo} {limits : Limits} {maxRows numCols : Nat} {config : Config Binary32}

/-- A solver that was just made through a gateway that refuses nothing. The gateway
    reports `info`, and the device behind it has these limits. -/
def Parallel.MadeThrough (info : DeviceInfo) (limits : Limits) (maxRows numCols : Nat)
    (config : Config Binary32) (t : Traced (Solver (Attached Parallel) Binary32)) : Prop :=
  ∃ (d : Device) (j : Journal) (s : Solver Parallel Binary32) (u : Traced Device) (j' : Journal),
    d.refuse = none ∧ d.info = info ∧ d.host.limits = limits ∧
      Solver.parallel maxRows numCols config ⟨d, j⟩ = .ok s u ∧ t = ⟨s.attach u.state, j'⟩

/-- If the device runs the workgroups that the gateway reports, the solver is at the
    stage from which it can be followed. -/
theorem Parallel.stage_of_madeThrough {t : Traced (Solver (Attached Parallel) Binary32)}
    (h : MadeThrough info limits maxRows numCols config t)
    (hwide : (Geometry.ofDevice info config.maxWorkgroupSize).workgroup
      ≤ limits.maxWorkgroupSize) :
    maxRows + numCols < UInt32.size ∧
      Solver.Stage (reading (Geometry.ofDevice info config.maxWorkgroupSize).workgroup)
        (reading (Geometry.ofDevice info config.maxWorkgroupSize).workgroup) maxRows numCols
        config t.state t.state := by
  rcases h with ⟨d, j, s, u, j', hrefuse, rfl, rfl, hmake, rfl⟩
  have hsize := (Solver.checkDimensions_eq_ok
    (Solver.checkInput_eq_ok (input_of_parallel hmake).1).1).2.2
  rcases created_of_parallel hrefuse hmake with ⟨p, rfl, hp⟩
  rw [← hp.geometry] at hwide ⊢
  have hdesc := hp.describes hsize hwide
  exact ⟨hsize, Solver.stage_fresh rfl rfl hdesc hdesc⟩

open Solver in
/-- After any session, the first search of a solver with an observer gives three
    accounts of itself, and they agree. -/
theorem search_accounts_agree (maxRows numCols : Nat) (config : Config Binary32)
    (ops : List (Operation Binary32)) (fuel : Nat) :
    (∀ t answers u, Sequential.Made maxRows numCols config t → session ops t = .ok answers u →
      u.state.phase = .building → u.state.observed = true →
      ∃ bases ns es, Chronicle maxRows numCols u (solve fuel u) bases ns es) ∧
    ∀ info limits t answers u, Parallel.MadeThrough info limits maxRows numCols config t →
      (Geometry.ofDevice info config.maxWorkgroupSize).workgroup ≤ limits.maxWorkgroupSize →
      session ops t = .ok answers u → u.state.phase = .building → u.state.observed = true →
      ∃ bases ns es, Chronicle maxRows numCols u (solve fuel u) bases ns es := by
  constructor
  · intro t answers u hmade hrun hphase hobserved
    rcases Sequential.stage_of_made hmade with ⟨hsize, hstage⟩
    exact (hstage.after_session hrun).chronicle (Sequential.logs (P := fun _ => True)) hsize
      hphase hobserved fuel
  · intro info limits t answers u hmade hwide hrun hphase hobserved
    rcases Parallel.stage_of_madeThrough hmade hwide with ⟨hsize, hstage⟩
    exact (hstage.after_session hrun).chronicle (Parallel.logs (Nat.le_refl _)) hsize hphase
      hobserved fuel

end Made

/-- A session that leaves two rows for the same column: one has to be at least one, and
    the other at most zero. -/
def crossingSession : List (Operation Binary32) :=
  [.observe true, .build (.constraint #[⟨0x3f800000⟩]), .build (.constraint #[⟨0x3f800000⟩]),
    .build (.bounds 1 (.lower (some ⟨0x3f800000⟩))), .build (.bounds 2 (.upper (some ⟨0⟩)))]

/-- Its search makes one exchange and then finds that no variable suits the other
    slack. -/
theorem search_accounts_agree_crossing :
    (∃ (t u : Traced (Solver (Sequential Binary32) Binary32)) (bases : List Basis)
        (ns : List Notice) (es : List Event), Sequential.Made 2 1 Config.standard t ∧
      (∃ answers, Solver.session crossingSession t = .ok answers u) ∧
      u.state.phase = .building ∧ u.state.observed = true ∧
      Solver.Chronicle 2 1 u (Solver.solve 2 u) bases ns es ∧
      Exec.outcome (Solver.solve 2 u) = .ok false ∧
      (Exec.final (Solver.solve 2 u)).state.history = #[⟨0, 1, 0⟩]) ∧
    ∃ (t u : Traced (Solver (Attached Parallel) Binary32)) (bases : List Basis)
        (ns : List Notice) (es : List Event),
      Parallel.MadeThrough (HostDevice.idle ⟨4, 1⟩).info ⟨4, 1⟩ 2 1 Config.standard t ∧
      (∃ answers, Solver.session crossingSession t = .ok answers u) ∧
      u.state.phase = .building ∧ u.state.observed = true ∧
      Solver.Chronicle 2 1 u (Solver.solve 2 u) bases ns es ∧
      Exec.outcome (Solver.solve 2 u) = .ok false ∧
      (Exec.final (Solver.solve 2 u)).state.history = #[⟨0, 1, 0⟩] := by
  constructor
  -- One evaluation builds the solver, feeds it and searches, and gives the hypotheses of the
  -- theorem with what is claimed about the end.
  · have hrun : Exec.endsWith (Solver.sequential 2 1 Config.standard (⟨(), #[]⟩ : Traced Unit))
        (fun s _ => Exec.endsWith (Solver.session crossingSession ⟨s, #[]⟩) fun _ u =>
          decide (u.state.phase = .building ∧ u.state.observed = true) &&
          Exec.endsWith (Solver.solve 2 u) fun sat v =>
            decide (sat = false ∧ v.state.history = #[⟨0, 1, 0⟩])) = true := by decide +kernel
    rcases Exec.exists_of_endsWith hrun with ⟨s, x, hmake, hrest⟩
    rcases Exec.exists_of_endsWith hrest with ⟨answers, u, hsession, htest⟩
    rcases Bool.and_eq_true_iff.mp htest with ⟨hready, hsearch⟩
    rcases of_decide_eq_true hready with ⟨hphase, hobserved⟩
    rcases Exec.exists_of_endsWith hsearch with ⟨sat, v, hsolve, hend⟩
    rcases of_decide_eq_true hend with ⟨rfl, hhistory⟩
    have hmade : Sequential.Made 2 1 Config.standard ⟨s, #[]⟩ := ⟨_, s, x, #[], hmake, rfl⟩
    rcases (search_accounts_agree 2 1 Config.standard crossingSession 2).1 _ answers u hmade
      hsession hphase hobserved with ⟨bases, ns, es, hchronicle⟩
    refine ⟨_, u, bases, ns, es, hmade, ⟨answers, hsession⟩, hphase, hobserved, hchronicle, ?_, ?_⟩
    · rw [hsolve]
      rfl
    · rw [hsolve]
      exact hhistory
  · have hrun : Exec.endsWith (Solver.parallel 2 1 Config.standard ⟨.toHost (.idle ⟨4, 1⟩), #[]⟩)
        (fun s x => Exec.endsWith (Solver.session crossingSession ⟨s.attach x.state, #[]⟩)
          fun _ u => decide (u.state.phase = .building ∧ u.state.observed = true) &&
          Exec.endsWith (Solver.solve 2 u) fun sat v =>
            decide (sat = false ∧ v.state.history = #[⟨0, 1, 0⟩])) = true := by decide +kernel
    rcases Exec.exists_of_endsWith hrun with ⟨s, x, hmake, hrest⟩
    rcases Exec.exists_of_endsWith hrest with ⟨answers, u, hsession, htest⟩
    rcases Bool.and_eq_true_iff.mp htest with ⟨hready, hsearch⟩
    rcases of_decide_eq_true hready with ⟨hphase, hobserved⟩
    rcases Exec.exists_of_endsWith hsearch with ⟨sat, v, hsolve, hend⟩
    rcases of_decide_eq_true hend with ⟨rfl, hhistory⟩
    have hmade : Parallel.MadeThrough (HostDevice.idle ⟨4, 1⟩).info ⟨4, 1⟩ 2 1 Config.standard
        ⟨s.attach x.state, #[]⟩ := ⟨_, #[], s, x, #[], rfl, rfl, rfl, hmake, rfl⟩
    rcases (search_accounts_agree 2 1 Config.standard crossingSession 2).2 _ _ _ answers u hmade
      (by decide) hsession hphase hobserved with ⟨bases, ns, es, hchronicle⟩
    refine ⟨_, u, bases, ns, es, hmade, ⟨answers, hsession⟩, hphase, hobserved, hchronicle, ?_, ?_⟩
    · rw [hsolve]
      rfl
    · rw [hsolve]
      exact hhistory

end BoundedSimplex
