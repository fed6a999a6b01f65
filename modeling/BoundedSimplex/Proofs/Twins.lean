import BoundedSimplex.Proofs.Alike
import BoundedSimplex.Proofs.Reports

/-!
# Searches Side by Side

One search on two engines that show the same board, or boards that belong
together.

Whatever its engine is, a solver keeps a configuration, a phase, a history and
the notices for its observer. This is its `Face`. Two solvers with the same
face are `Twins`, with whatever is known of their engines, and one request to
both makes twins of them again, at the next boards: the parts of the search
that do not ask the engine do the same to both faces, and the parts that ask it
get the same answer, because the answer is one of the board.

Two boards belong together if an iteration makes the same choices on both and
leads to boards that belong together. What this means in detail is left open,
`Coupling`. The first case is a board with itself. Then the single thing in
which the engines may differ is the sum of a row, so the two searches are alike
for as long as the sums match, and `Board.after_congr` says which sums these
are: the ones of the rows as they stand after an iteration, since no row reads a
value that another one writes.

An engine may repeat a sum for ever. Then its twin has to do the same.

## Main definitions

* `Engine.Reading`: All there is to know of an engine as a board.
* `Solver.Face`: What a solver keeps apart from its engine.
* `Solver.Twins`: Two solvers with one face.
* `Board.SumsMatch`: Two ways to add up the rows of a board come to the same.
* `Board.Lockstep`: Boards on which an iteration makes the same choices.
* `Solver.Coupling`: Boards that belong together during a search.
* `Solver.Searched`: Two solvers at one board of a search.

## Theorems

* `Solver.iterate_alike`: One iteration on both engines.
* `Solver.run_alike`: Iterations up to a verdict.
* `Solver.solve_coupled`: The whole search, from boards that belong together.
* `Solver.solve_alike`: The whole search, from one board.
-/

namespace BoundedSimplex

/-- All there is to know of an engine as a board. Statements about both engines are made for
    any two readings, so that neither proof looks inside an engine. -/
structure Engine.Reading (β α : Type) [Scalar α] [Engine β α] where
  sum : Summation α
  obstacle : Nat → Option Obstacle
  Ready : Workspace β α → Board α → Prop
  Shows : Workspace β α → Board α → Prop
  builds : Engine.Builds Ready
  follows : Engine.Follows sum obstacle Ready Shows
  reportsReady : Engine.Reports Ready
  reportsShows : Engine.Reports Shows

/-- The engine on tables of the process. -/
def Sequential.reading {α : Type} [Scalar α] [StrictScalar α] :
    Engine.Reading (Sequential α) α where
  sum := leftSum
  obstacle _ := none
  Ready := Shows
  Shows := Shows
  builds := builds
  follows := follows
  reportsReady := reports
  reportsShows := reports

/-- The engine on a device, with workgroups of a width. -/
def Parallel.reading (width : Nat) : Engine.Reading (Attached Parallel) Binary32 where
  sum := groupedSum width
  obstacle := sumObstacle width
  Ready := Ready width
  Shows := Shows width
  builds := builds width
  follows := follows width
  reportsReady := reports_ready width
  reportsShows := reports_shows width

/-! ### Sums that match -/

namespace Board

variable {α : Type} [Scalar α] {sum sum' : Summation α} {b : Board α} {leaving entering : Nat}

/-- Two ways to add up the rows that are taken come to the same on one board. Nothing is
    said of other numbers. -/
def SumsMatch (sum sum' : Summation α) (b : Board α) : Prop :=
  ∀ r < b.numRows, sum' b.numCols (b.products r) = sum b.numCols (b.products r)

/-- If the sums match after an iteration they did so when it added them up. -/
theorem after_congr [StrictScalar α] (hv : b.Valid) (h : b.Exchanges leaving entering)
    (hmatch : SumsMatch sum sum' (b.after sum leaving entering)) :
    b.after sum' leaving entering = b.after sum leaving entering := by
  let b' := (b.corrected leaving entering).exchanged leaving entering
  -- The products of a row are those of nonbasic variables, and their values are not recomputed.
  have hproducts : ∀ r, (b.after sum leaving entering).products r = b'.products r :=
    (hv.exchangedAfter h).products_recomputed
  -- So both ways of adding up have seen the same products and found the same sum.
  have hvalue : (b'.recomputed sum').value = (b'.recomputed sum).value := by
    funext v
    simp only [recomputed, recomputedOutside]
    by_cases howns : b'.OwnsOutside [] v
    · rw [if_pos howns, if_pos howns, ← hproducts]
      exact hmatch _ howns.2.2.1
    · rw [if_neg howns, if_neg howns]
  calc b.after sum' leaving entering
      = { b' with value := (b'.recomputed sum').value } := rfl
    _ = b.after sum leaving entering := by rw [hvalue]; rfl

/-- Two boards on which an iteration makes the same choices. Values and coefficients need
    not be the same for that. -/
structure Lockstep (b b' : Board α) : Prop where
  left : b.Valid
  right : b'.Valid
  numCols : b'.numCols = b.numCols
  broken : b'.firstBroken = b.firstBroken
  suitable : ∀ leaving, b.firstBroken = some leaving →
    b'.firstSuitable leaving = b.firstSuitable leaving

theorem Lockstep.refl (h : b.Valid) : Lockstep b b := ⟨h, h, rfl, rfl, fun _ _ => rfl⟩

theorem Lockstep.exchanges {b' : Board α} (h : Lockstep b b') (hex : b.Exchanges leaving entering) :
    b'.Exchanges leaving entering :=
  ⟨h.broken.trans hex.broken, (h.suitable _ hex.broken).trans hex.suitable⟩

end Board

namespace Solver

open Board Exec

/-! ### Solvers with one face -/

/-- What a solver keeps apart from its engine. It is the part in which two solvers can be
    equal although their engines are of different kinds. -/
structure Face (α : Type) where
  config : Config α
  phase : Phase
  history : Array PivotStep
  observed : Bool
  notices : Array Notice

variable {β β' α γ : Type}

def face (s : Solver β α) : Face α := ⟨s.config, s.phase, s.history, s.observed, s.notices⟩

/-- The observer was told something, if there is one. -/
def Face.told (f : Face α) (n : Notice) : Face α :=
  { f with notices := if f.observed then f.notices.push n else f.notices }

/-- Two solvers with one face, and what is known of their engines. -/
structure Twins (P : Workspace β α → Prop) (P' : Workspace β' α → Prop) (f : Face α)
    (s : Solver β α) (s' : Solver β' α) : Prop where
  left : P s.workspace
  right : P' s'.workspace
  face_left : s.face = f
  face_right : s'.face = f

namespace Twins

variable {P Q : Workspace β α → Prop} {P' Q' : Workspace β' α → Prop} {f : Face α}
  {t : Traced (Solver β α)} {t' : Traced (Solver β' α)}
  {E : Stop → Solver β α → Solver β' α → Prop}

/-! What the face shows of both. -/

theorem configs {s : Solver β α} {s' : Solver β' α} (h : Twins P P' f s s') :
    s.config = f.config ∧ s'.config = f.config :=
  ⟨congrArg Face.config h.face_left, congrArg Face.config h.face_right⟩

theorem phases {s : Solver β α} {s' : Solver β' α} (h : Twins P P' f s s') :
    s.phase = f.phase ∧ s'.phase = f.phase :=
  ⟨congrArg Face.phase h.face_left, congrArg Face.phase h.face_right⟩

theorem histories {s : Solver β α} {s' : Solver β' α} (h : Twins P P' f s s') :
    s.history = f.history ∧ s'.history = f.history :=
  ⟨congrArg Face.history h.face_left, congrArg Face.history h.face_right⟩

/-- Both observers are told the same, if there are any. -/
theorem notify {n n' : Notice} (h : Twins P P' f t.state t'.state)
    (hn : f.observed = true → n' = n) :
    Alike (fun _ => Twins P P' (f.told n)) E (Solver.notify n t) (Solver.notify n' t') := by
  -- Whether the observer is there or not decides about the notices alone.
  have hface : ∀ {δ : Type} (s : Solver δ α) (m : Notice), s.face = f →
      (f.observed = true → m = n) →
      (if s.observed then { s with notices := s.notices.push m } else s).face = f.told n ∧
      (if s.observed then { s with notices := s.notices.push m } else s).workspace
        = s.workspace := by
    rintro δ s m rfl hm
    by_cases hobs : s.observed = true
    · rw [if_pos hobs, hm hobs]
      simp only [face, Face.told, hobs, if_true, and_self]
    · rw [if_neg hobs]
      simp only [face, Face.told, hobs, if_false, Bool.false_eq_true, and_self]
  have hl := hface t.state n h.face_left fun _ => rfl
  have hr := hface t'.state n' h.face_right hn
  refine Alike.update ⟨?_, ?_, hl.1, hr.1⟩
  · rw [hl.2]
    exact h.left
  · rw [hr.2]
    exact h.right

/-- What both engines reply is the same, and it changes the workspace alone. -/
theorem onWorkspace_replies {act : Exec (Workspace β α) γ} {act' : Exec (Workspace β' α) γ}
    {x : Except Error γ} (h : Twins P P' f t.state t'.state) (hl : ∀ w, P w → act.Replies w x Q)
    (hr : ∀ w, P' w → act'.Replies w x Q')
    (hE : ∀ e s s', x = .error e → Twins Q Q' f s s' → E (.error e) s s') :
    Alike (fun r s s' => x = .ok r ∧ Twins Q Q' f s s') E (Solver.onWorkspace act t)
      (Solver.onWorkspace act' t') := by
  unfold Solver.onWorkspace
  refine Alike.focus (Alike.of_replies (hl _ h.left) (hr _ h.right) ?_ ?_)
  · exact fun r w w' hx hw hw' => ⟨hx, hw, hw', h.face_left, h.face_right⟩
  · exact fun e w w' hx hw hw' => hE e _ _ hx ⟨hw, hw', h.face_left, h.face_right⟩

/-- What both engines give is the same. -/
theorem onWorkspace {act : Exec (Workspace β α) γ} {act' : Exec (Workspace β' α) γ} {a : γ}
    (h : Twins P P' f t.state t'.state) (hl : ∀ w, P w → act.Gives w fun r w' => r = a ∧ Q w')
    (hr : ∀ w, P' w → act'.Gives w fun r w' => r = a ∧ Q' w') :
    Alike (fun r s s' => r = a ∧ Twins Q Q' f s s') E (Solver.onWorkspace act t)
      (Solver.onWorkspace act' t') := by
  refine (h.onWorkspace_replies (x := .ok a) hl hr ?_).mono ?_ fun _ _ _ he => he
  · intro e s s' hx
    cases hx
  · rintro r s s' ⟨hx, htwins⟩
    cases hx
    exact ⟨rfl, htwins⟩

/-- Neither engine gets any further. -/
theorem onWorkspace_stops {act : Exec (Workspace β α) γ} {act' : Exec (Workspace β' α) γ}
    {e : Stop} (hl : act.Stops t.state.workspace e fun _ => True)
    (hr : act'.Stops t'.state.workspace e fun _ => True) (hE : ∀ s s', E e s s') :
    Alike (fun _ _ _ => False) E (Solver.onWorkspace act t) (Solver.onWorkspace act' t') := by
  unfold Solver.onWorkspace
  exact Alike.focus (Alike.of_stops hl hr fun _ _ _ _ => hE _ _)

/-- Both solvers record the same exchange. -/
theorem push (h : Twins P P' f t.state t'.state) (step : PivotStep) :
    Twins P P' { f with history := f.history.push step }
      { t.state with history := t.state.history.push step }
      { t'.state with history := t'.state.history.push step } := by
  refine ⟨h.left, h.right, ?_, ?_⟩
  · rw [← h.face_left]
    rfl
  · rw [← h.face_right]
    rfl

/-- Both solvers enter the same phase. -/
theorem withPhase {s : Solver β α} {s' : Solver β' α} (h : Twins P P' f s s') (phase : Phase) :
    Twins P P' { f with phase := phase } { s with phase := phase } { s' with phase := phase } := by
  refine ⟨h.left, h.right, ?_, ?_⟩
  · rw [← h.face_left]
    rfl
  · rw [← h.face_right]
    rfl

theorem view {g : Solver β α → γ} {g' : Solver β' α → γ} {a : γ}
    (h : Twins P P' f t.state t'.state) (hg : g t.state = a) (hg' : g' t'.state = a) :
    Alike (fun r s s' => r = a ∧ Twins P P' f s s') E (Exec.view g t) (Exec.view g' t') := by
  subst hg
  unfold Exec.view
  rw [hg']
  exact .ok ⟨rfl, h⟩

/-- Both solvers look at the same limit. -/
theorem checkLimit (h : Twins P P' f t.state t'.state) (n : Nat)
    (hlimit : ∀ limit s s', f.config.maxIterations = some limit → limit ≤ n →
      Twins P P' f s s' → E (.error (.iterationLimit limit)) s s') :
    Alike (fun _ => Twins P P' f) E (Solver.checkLimit n t) (Solver.checkLimit n t') := by
  refine Alike.state ?_
  rw [h.configs.1, h.configs.2]
  cases hmax : f.config.maxIterations with
  | none => exact Alike.pure h
  | some limit =>
      by_cases hle : limit ≤ n
      · simp only [if_pos hle]
        exact .error (hlimit limit _ _ hmax hle h)
      · simp only [if_neg hle]
        exact Alike.pure h

/-- Both solvers record the same verdict. -/
theorem finish (h : Twins P P' f t.state t'.state) (sat : Bool) :
    Alike (fun r s s' => ∃ g, g.phase = .ofVerdict r ∧ g.config = f.config ∧
        g.history = f.history ∧ g.observed = f.observed ∧ Twins P P' g s s') E
      (Solver.finish sat t) (Solver.finish sat t') := by
  let g : Face α := { f with phase := .ofVerdict sat }
  refine Alike.state ?_
  rw [h.histories.1, h.histories.2]
  refine (Alike.update (R := fun _ => Twins P P' g) (h.withPhase (.ofVerdict sat))).bind
    fun _ u u' _ h₁ => ?_
  refine (Alike.emit (R := fun _ => Twins P P' g) h₁).bind fun _ v v' _ h₂ => ?_
  refine (h₂.notify fun _ => rfl).bind fun _ w w' _ h₃ => ?_
  exact Alike.pure ⟨g.told (.verdict sat f.history.size), rfl, rfl, rfl, rfl, h₃⟩

/-- Both solvers record that they gave up. -/
theorem abort {e : Error} {Q : Bool → Solver β α → Solver β' α → Prop}
    (h : Twins P P' f t.state t'.state)
    (hE : ∀ s s', Twins P P' { f with phase := .aborted } s s' → E (.error e) s s') :
    Alike Q E (Solver.abort e t) (Solver.abort e t') := by
  refine (Alike.update (R := fun _ => Twins P P' _) (h.withPhase .aborted)).bind
    fun _ u u' _ h₁ => ?_
  refine (Alike.emit (R := fun _ => Twins P P' _) h₁).bind fun _ v v' _ h₂ => ?_
  exact .error (hE _ _ h₂)

end Twins

/-! ### One iteration -/

variable [Scalar α] [Engine β α] [Engine β' α]

/-- At this moment both engines add up the rows that are taken to the same. -/
def SumsMatchAt (R : Engine.Reading β α) (R' : Engine.Reading β' α) (w : Workspace β α) : Prop :=
  ∀ b, b.Valid → R.Shows w b → SumsMatch R.sum R'.sum b

/-- How an iteration that does not stop ends on both engines: with a verdict at the boards
    where it began, or at the next ones, with the same exchange in both histories. -/
inductive Stepped (R : Engine.Reading β α) (R' : Engine.Reading β' α) (b b' : Board α) (f : Face α)
    (n : Nat) : Option Bool → Solver β α → Solver β' α → Prop where
  | verdict {sat : Bool} {f' : Face α} {s : Solver β α} {s' : Solver β' α} :
      Twins (R.Shows · b) (R'.Shows · b') f' s s' → f'.config = f.config →
      f'.history = f.history → f'.observed = f.observed → Stepped R R' b b' f n (some sat) s s'
  | exchange {leaving entering : Nat} {f' : Face α} {s : Solver β α} {s' : Solver β' α} :
      b.Exchanges leaving entering → Twins (R.Shows · (b.after R.sum leaving entering))
        (R'.Shows · (b'.after R'.sum leaving entering)) f' s s' →
      f'.config = f.config → f'.history = f.history.push ⟨n, leaving, entering⟩ →
      f'.observed = f.observed → Stepped R R' b b' f n none s s'

/-- How an iteration stops on both engines: at the limit, or in a sum. -/
inductive Halted (R : Engine.Reading β α) (R' : Engine.Reading β' α) (b b' : Board α) (f : Face α)
    (n : Nat) : Stop → Solver β α → Solver β' α → Prop where
  | limit {limit : Nat} {s : Solver β α} {s' : Solver β' α} :
      f.config.maxIterations = some limit → limit ≤ n → Twins (R.Shows · b) (R'.Shows · b') f s s' →
      Halted R R' b b' f n (.error (.iterationLimit limit)) s s'
  | stuck {o : Obstacle} {e : Stop} {s : Solver β α} {s' : Solver β' α} :
      R.obstacle b.numCols = some o → e = o.stop → Halted R R' b b' f n e s s'

/-- Two solvers at boards of their searches that belong together after the same exchanges.
    `K` says which boards do, and may depend on the exchanges so far. -/
inductive Coupled (R : Engine.Reading β α) (R' : Engine.Reading β' α)
    (K : List (Nat × Nat) → Board α → Board α → Prop) (c : Config α) (observed : Bool) (f : Face α)
    (s : Solver β α) (s' : Solver β' α) : Prop where
  | at {l : List (Nat × Nat)} {b b' : Board α} : K l b b' →
      Twins (R.Shows · b) (R'.Shows · b') f s s' → f.config = c → f.history = stepsOf l →
      f.observed = observed → Coupled R R' K c observed f s s'

/-- Two solvers that stand at one board of a search. This is the special case in which
    boards belong together if they are equal, and the sums of the rows are as well. -/
inductive Searched (R : Engine.Reading β α) (R' : Engine.Reading β' α) (b₀ : Board α)
    (c : Config α) (f : Face α) (s : Solver β α) (s' : Solver β' α) : Prop where
  | at {l : List (Nat × Nat)} {b : Board α} : Run R.sum b₀ l b →
      Twins (R.Shows · b) (R'.Shows · b) f s s' → f.config = c → f.history = stepsOf l →
      Searched R R' b₀ c f s s'

/-- How two searches stop without a verdict: at the limit, in some phase, or
    because they have not ended, or because no row can be summed. -/
inductive Unfinished (obstacle : Option Obstacle) (c : Config α) (phase : Phase → Prop)
    (At : Face α → Solver β α → Solver β' α → Prop) :
    Stop → Solver β α → Solver β' α → Prop where
  | limit {limit : Nat} {f : Face α} {s : Solver β α} {s' : Solver β' α} :
      c.maxIterations = some limit → phase f.phase → At f s s' →
      Unfinished obstacle c phase At (.error (.iterationLimit limit)) s s'
  | fuel {s : Solver β α} {s' : Solver β' α} : Unfinished obstacle c phase At .outOfFuel s s'
  | stuck {o : Obstacle} {e : Stop} {s : Solver β α} {s' : Solver β' α} : obstacle = some o →
      e = o.stop → Unfinished obstacle c phase At e s s'

/-- What is asked of boards that belong together: an iteration makes the same
    choices on both, and what it leads to belongs together again, as far as a search
    from `t` with so much fuel gets. An observer is shown the basis, so there must be
    one basis if there is an observer. -/
structure Coupling (R : Engine.Reading β α) (R' : Engine.Reading β' α) (t : Traced (Solver β α))
    (fuel numCols : Nat) (observed : Bool) (K : List (Nat × Nat) → Board α → Board α → Prop) :
    Prop where
  obstacle : R'.obstacle numCols = R.obstacle numCols
  numCols : ∀ l b b', K l b b' → b.numCols = numCols
  lockstep : ∀ l b b', K l b b' → Lockstep b b'
  basis : ∀ l b b', K l b b' → observed = true → b'.basis = b.basis
  step : ∀ l b b' leaving entering v, K l b b' → b.Exchanges leaving entering → l.length < fuel →
    Reaches t (l.length + 1) v → R.Shows v.state.workspace (b.after R.sum leaving entering) →
    K (l ++ [(leaving, entering)]) (b.after R.sum leaving entering)
      (b'.after R'.sum leaving entering)

section Search

variable {R : Engine.Reading β α} {R' : Engine.Reading β' α} {b b' : Board α}
  {f : Face α} {t : Traced (Solver β α)} {t' : Traced (Solver β' α)}

/-- The rows are recomputed on both engines, or one obstacle keeps both from it. The sums
    are the one thing in which the engines may differ. -/
theorem Twins.updateAssignment {E : Stop → Solver β α → Solver β' α → Prop}
    (h : Twins (R.Shows · b) (R'.Shows · b') f t.state t'.state) (hv : b.Valid) (hv' : b'.Valid)
    (hrows : 0 < b.numRows) (hrows' : 0 < b'.numRows) (hcols : b'.numCols = b.numCols)
    (hsame : R'.obstacle b.numCols = R.obstacle b.numCols)
    (hE : ∀ o, R.obstacle b.numCols = some o → ∀ s s', E o.stop s s') :
    Alike (fun _ => Twins (R.Shows · (b.recomputed R.sum)) (R'.Shows · (b'.recomputed R'.sum)) f) E
      (Solver.onWorkspace Engine.updateAssignment t)
      (Solver.onWorkspace Engine.updateAssignment t') := by
  -- Both engines have the same obstacle, or none.
  cases hobstacle : R.obstacle b.numCols with
  | none =>
      rw [hobstacle, ← hcols] at hsame
      refine (h.onWorkspace (a := ())
        (fun w hw => (R.follows.update w _ hw hv hobstacle).mono fun _ w' hw' => ⟨rfl, hw'⟩)
        fun w hw => (R'.follows.update w _ hw hv' hsame).mono fun _ w' hw' => ⟨rfl, hw'⟩).mono
          (fun _ _ _ hs => hs.2) fun _ _ _ he => he
  | some o =>
      rw [hobstacle, ← hcols] at hsame
      refine (Twins.onWorkspace_stops ?_ ?_ (hE o hobstacle)).mono (fun _ _ _ hfalse => hfalse.elim)
        fun _ _ _ he => he
      · exact R.follows.updateStuck _ _ o h.left hv hobstacle hrows
      · exact R'.follows.updateStuck _ _ o h.right hv' hsame hrows'

/-- One iteration on both engines. The sums play no part yet: they only decide which boards
    the two engines get to. -/
theorem iterate_alike [StrictScalar α] (hl : Lockstep b b')
    (hsame : R'.obstacle b.numCols = R.obstacle b.numCols)
    (hbasis : f.observed = true → b'.basis = b.basis)
    (h : Twins (R.Shows · b) (R'.Shows · b') f t.state t'.state) (n : Nat) :
    Alike (Stepped R R' b b' f n) (Halted R R' b b' f n) (iterate n t) (iterate n t') := by
  have hF := R.follows
  have hF' := R'.follows
  have hv := hl.left
  have hv' := hl.right
  refine (h.onWorkspace (fun w hw => hF.checkBounds w b hw hv) fun w hw =>
    (hF'.checkBounds w b' hw hv').mono fun _ _ hr => ⟨hr.1.trans hl.broken, hr.2⟩).bind ?_
  rintro _ u u' - ⟨rfl, h₁⟩
  -- The two boards make the same choices, so both engines take the same way through the
  -- iteration.
  cases hb : b.firstBroken with
  | none => exact Alike.pure (.verdict h₁ rfl rfl rfl)
  | some leaving =>
      have hb' := hl.broken.trans hb
      refine (h₁.checkLimit n fun limit _ _ => .limit).bind fun _ v v' _ h₂ => ?_
      refine (Alike.emit (R := fun _ => Twins _ _ f) h₂).bind fun _ v v' _ h₃ => ?_
      refine (h₃.notify fun _ => rfl).bind fun _ v v' _ h₄ => ?_
      cases hs : b.firstSuitable leaving with
      | none =>
          have hs' := (hl.suitable leaving hb).trans hs
          refine (h₄.onWorkspace (fun w hw => hF.findNone w b leaving hw hv hb hs)
            fun w hw => hF'.findNone w b' leaving hw hv' hb' hs').bind ?_
          rintro _ v v' - ⟨rfl, h₅⟩
          refine (Alike.emit (R := fun _ => Twins _ _ (f.told (.broken n leaving))) h₅).bind
            fun _ v v' _ h₆ => ?_
          exact Alike.pure (.verdict h₆ rfl rfl rfl)
      | some entering =>
          have hex : b.Exchanges leaving entering := ⟨hb, hs⟩
          have hex' := hl.exchanges hex
          have hve := hv.exchangedAfter hex
          have hve' := hv'.exchangedAfter hex'
          refine (h₄.onWorkspace (fun w hw => hF.findSome w b leaving entering hw hv hex)
            fun w hw => hF'.findSome w b' leaving entering hw hv' hex').bind ?_
          rintro _ v v' - ⟨rfl, h₅⟩
          refine (h₅.onWorkspace (a := ())
            (fun w hw => (hF.pivot w b leaving entering hv hex hw).mono fun _ w' hw' => ⟨rfl, hw'⟩)
            fun w hw => (hF'.pivot w b' leaving entering hv' hex' hw).mono
              fun _ w' hw' => ⟨rfl, hw'⟩).bind ?_
          rintro _ v v' - ⟨-, h₆⟩
          refine (Alike.emit (R := fun _ => Twins _ _ (f.told (.broken n leaving))) h₆).bind
            fun _ v v' _ h₇ => ?_
          refine (Alike.update (R := fun _ => Twins _ _ { f.told (.broken n leaving) with
            history := f.history.push ⟨n, leaving, entering⟩ })
            (h₇.push ⟨n, leaving, entering⟩)).bind fun _ v v' _ h₈ => ?_
          refine Alike.view ?_
          -- The callback is shown the basis. It has to be the same one only if there is an
          -- observer.
          have hseen : f.observed = true → v'.state.basis = v.state.basis := by
            intro hobs
            have hleft : v.state.basis = b.basis.swapped leaving entering :=
              R.reportsShows.basis _ _ h₈.left
            have hright : v'.state.basis = b'.basis.swapped leaving entering :=
              R'.reportsShows.basis _ _ h₈.right
            rw [hleft, hright, hbasis hobs]
          refine (h₈.notify fun hobs => by rw [hseen hobs]).bind fun _ v v' _ h₉ => ?_
          refine (h₉.updateAssignment hve hve' (Nat.zero_lt_of_lt (hex.row_lt hv))
            (Nat.zero_lt_of_lt (hex'.row_lt hv')) hl.numCols hsame
            fun _ hstuck _ _ => .stuck hstuck rfl).bind fun _ v v' _ h₁₀ => ?_
          exact Alike.pure (.exchange hex h₁₀ rfl rfl rfl)

variable {K : List (Nat × Nat) → Board α → Board α → Prop} {c : Config α} {fuel numCols : Nat}
  {observed : Bool}

/-- Iterations up to a verdict, from boards that belong together. The induction is on the
    iterations that are left. -/
theorem run_alike [StrictScalar α] {t₀ : Traced (Solver β α)}
    (hK : Coupling R R' t₀ fuel numCols observed K) (rest : Nat) :
    ∀ {l : List (Nat × Nat)} {b b' : Board α} {f : Face α} {u : Traced (Solver β α)}
      {u' : Traced (Solver β' α)}, l.length + rest = fuel → Reaches t₀ l.length u → K l b b' →
      Twins (R.Shows · b) (R'.Shows · b') f u.state u'.state → f.config = c →
      f.history = stepsOf l → f.observed = observed →
      Alike (fun _ s s' => ∃ f, Coupled R R' K c observed f s s')
        (Unfinished (R.obstacle numCols) c (fun _ => True) (Coupled R R' K c observed))
        (run rest l.length u) (run rest l.length u') := by
  -- Induction on the steps that are left. What the boards have in common is kept by each
  -- exchange, since the coupling says so.
  induction rest with
  | zero => exact fun _ _ _ _ _ _ _ => .error .fuel
  | succ rest ih =>
      intro l b b' f u u' htotal hreach hboards htwins hconfig hhistory hobserved
      have hcols := hK.numCols _ _ _ hboards
      have hstep : Alike (Stepped R R' b b' f l.length) (Halted R R' b b' f l.length)
          (iterate l.length u) (iterate l.length u') := by
        refine iterate_alike (hK.lockstep _ _ _ hboards) (by rw [hcols]; exact hK.obstacle)
          (fun hobs => ?_) htwins l.length
        exact hK.basis _ _ _ hboards (hobserved.symm.trans hobs)
      rw [run, run]
      refine (hstep.mono (fun _ _ _ hr => hr) ?_).bind ?_
      · intro e s s' he
        cases he with
        | limit hmax _ htwins' =>
            rw [hconfig] at hmax
            exact .limit hmax trivial (.at hboards htwins' hconfig hhistory hobserved)
        | stuck hstuck he => exact .stuck (by rw [← hcols]; exact hstuck) he
      · intro r v v' hit hstepped
        cases hstepped with
        | verdict htwins' hconfig' hhistory' hobserved' =>
            exact Alike.pure ⟨_, .at hboards htwins' (hconfig'.trans hconfig)
              (hhistory'.trans hhistory) (hobserved'.trans hobserved)⟩
        | @exchange leaving entering g _ _ hex htwins' hconfig' hhistory' hobserved' =>
            have hreach' := hreach.next hit
            have hboards' := hK.step _ _ _ _ _ v hboards hex (by omega) hreach' htwins'.left
            -- One exchange more is one step less.
            have hlength : (l ++ [(leaving, entering)]).length = l.length + 1 := by
              rw [List.length_append, List.length_singleton]
            rw [← hlength] at hreach'
            have hrest := ih (by rw [hlength]; omega) hreach' hboards' htwins'
              (hconfig'.trans hconfig) (by rw [hhistory', hhistory, stepsOf_append])
              (hobserved'.trans hobserved)
            rw [hlength] at hrest
            exact hrest

/-- Both engines are made ready. -/
theorem opening_alike (hv : b.Valid) (hv' : b'.Valid)
    (h : Twins (R.Ready · b) (R'.Ready · b') f t.state t'.state) :
    ∃ u u', opening t = .ok () u ∧ opening t' = .ok () u' ∧
      Twins (R.Shows · b) (R'.Shows · b') f u.state u'.state := by
  have halike : Alike (fun _ => Twins (R.Shows · b) (R'.Shows · b') f) (fun _ _ _ => False)
      (opening t) (opening t') := by
    refine Alike.state ((Alike.emit (R := fun _ => Twins _ _ f) h).bind fun _ u u' _ h₁ => ?_)
    refine (h₁.onWorkspace (a := ())
      (fun w hw => (R.follows.prepare w b hw hv).mono fun _ w' hw' => ⟨rfl, hw'⟩)
      fun w hw => (R'.follows.prepare w b' hw hv').mono fun _ w' hw' => ⟨rfl, hw'⟩).mono ?_
      fun _ _ _ hfalse => hfalse
    exact fun _ _ _ h₂ => h₂.2
  -- Neither opening fails, so both have a result.
  generalize hrun : opening t = x at halike
  generalize hrun' : opening t' = x' at halike
  cases halike with
  | @ok _ u u' h₁ => exact ⟨u, u', rfl, rfl, h₁⟩
  | error hfalse => exact hfalse.elim

/-- The whole search, from boards that belong together. It is the one comparison of
    searches, and the others choose `K` for it. -/
theorem solve_coupled [StrictScalar α] (hK : Coupling R R' t fuel numCols f.observed K)
    (hboards : K [] b b') (h : Twins (R.Ready · b) (R'.Ready · b') f t.state t'.state)
    (hphase : f.phase = .building) (hhistory : f.history = #[]) :
    Alike (fun sat s s' => ∃ g, g.phase = .ofVerdict sat ∧
        Coupled R R' K f.config f.observed g s s')
      (Unfinished (R.obstacle numCols) f.config (· = .aborted) (Coupled R R' K f.config f.observed))
      (solve fuel t) (solve fuel t') := by
  have hleft : t.state.phase = .building := h.phases.1.trans hphase
  have hright : t'.state.phase = .building := h.phases.2.trans hphase
  have hlock := hK.lockstep _ _ _ hboards
  rcases opening_alike hlock.left hlock.right h with ⟨u, u', hopen, hopen', htwins⟩
  rw [solve_building hleft hopen, solve_building hright hopen']
  have hrun := run_alike (l := []) hK fuel (Nat.zero_add fuel) (.start hleft hopen) hboards htwins
    rfl hhistory rfl
  -- The search itself, with the verdict written down on both sides.
  have hboth : Alike (fun sat s s' => ∃ g, g.phase = .ofVerdict sat ∧
        Coupled R R' K f.config f.observed g s s')
      (Unfinished (R.obstacle numCols) f.config (fun _ => True)
        (Coupled R R' K f.config f.observed))
      ((run fuel 0 >>= finish) u) ((run fuel 0 >>= finish) u') := by
    refine hrun.bind fun sat v v' _ hcoupled => ?_
    rcases hcoupled with ⟨g, hboards', htwins', hconfig, hhistory', hobserved⟩
    refine (htwins'.finish sat).mono ?_ fun _ _ _ he => he
    rintro r s s' ⟨g', hphase', hconfig', hhistory'', hobserved', hs⟩
    exact ⟨g', hphase', .at hboards' hs (hconfig'.trans hconfig) (hhistory''.trans hhistory')
      (hobserved'.trans hobserved)⟩
  -- Only the limit is an error; whatever else stops a search is not answered.
  refine hboth.onError (fun e v v' he => ?_) fun e s s' hne he => ?_
  · cases he with
    | limit hmax _ hcoupled =>
        rcases hcoupled with ⟨hboards', htwins', hconfig, hhistory', hobserved⟩
        exact htwins'.abort fun s s' hs =>
          .limit hmax rfl (.at hboards' hs hconfig hhistory' hobserved)
    | @stuck o _ _ _ _ he => exact absurd he.symm (o.stop_ne_error _)
  · cases he with
    | limit => exact absurd rfl (hne _)
    | fuel => exact .fuel
    | stuck hstuck he => exact .stuck hstuck he

/-- A board belongs together with itself for as long as the sums match after each
    iteration. -/
theorem coupling_self [StrictScalar α] (hv : b.Valid)
    (hsame : R'.obstacle b.numCols = R.obstacle b.numCols)
    (hmatch : ∀ n v, n < fuel → Reaches t (n + 1) v → SumsMatchAt R R' v.state.workspace) :
    Coupling R R' t fuel b.numCols observed fun l x x' => Run R.sum b l x ∧ x' = x where
  obstacle := hsame
  numCols _ _ _ h := h.1.same.numCols
  -- The exchange is the same one, and the sums after it are the same by hypothesis.
  lockstep := by
    rintro l x _ ⟨hrun, rfl⟩
    exact .refl (hrun.valid hv)
  basis := by
    rintro l x _ ⟨-, rfl⟩ -
    rfl
  step := by
    rintro l x _ leaving entering v ⟨hrun, rfl⟩ hex hlt hreach hshows
    have hvx := hrun.valid hv
    exact ⟨hrun.step (next_eq_exchange_iff.mpr ⟨hex, rfl⟩),
      after_congr hvx hex (hmatch _ v hlt hreach _ (hvx.after hex) hshows)⟩

/-- The whole search, as long as the sums match after each iteration. Then the boards of the
    two are not only alike but equal. -/
theorem solve_alike [StrictScalar α] (hv : b.Valid)
    (hsame : R'.obstacle b.numCols = R.obstacle b.numCols)
    (h : Twins (R.Ready · b) (R'.Ready · b) f t.state t'.state) (hphase : f.phase = .building)
    (hhistory : f.history = #[]) (fuel : Nat)
    (hmatch : ∀ n v, n < fuel → Reaches t (n + 1) v → SumsMatchAt R R' v.state.workspace) :
    Alike (fun sat s s' => ∃ g, g.phase = .ofVerdict sat ∧ Searched R R' b f.config g s s')
      (Unfinished (R.obstacle b.numCols) f.config (· = .aborted) (Searched R R' b f.config))
      (solve fuel t) (solve fuel t') := by
  -- The two boards are one board here, so being coupled says no more than being searched.
  have hsearched : ∀ {g s s'}, Coupled R R' (fun l x x' => Run R.sum b l x ∧ x' = x) f.config
      f.observed g s s' → Searched R R' b f.config g s s' := by
    rintro g s s' ⟨⟨hrun, rfl⟩, htwins, hconfig, hhistory', -⟩
    exact .at hrun htwins hconfig hhistory'
  refine (solve_coupled (coupling_self hv hsame hmatch) ⟨.start, rfl⟩ h hphase hhistory).mono ?_ ?_
  · rintro sat s s' ⟨g, hg, hcoupled⟩
    exact ⟨g, hg, hsearched hcoupled⟩
  · intro e s s' he
    cases he with
    | limit hmax hg hcoupled => exact .limit hmax hg (hsearched hcoupled)
    | fuel => exact .fuel
    | stuck hstuck he => exact .stuck hstuck he

end Search

end Solver

end BoundedSimplex
