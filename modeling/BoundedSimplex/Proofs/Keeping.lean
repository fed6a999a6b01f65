import BoundedSimplex.Proofs.Alike

/-!
# What Operations Keep

Facts about all operations that are put together from the same steps.

Most of what an operation does to its state is decided by the few steps it is
made of: requests to a device, changes of a field. What each step keeps, the
operation keeps, in whatever order it makes them and wherever it stops.
`Composed` says of an operation that it is put together from steps of some
kind, and `Composed.maintains` is the induction. So an engine is looked at once,
to see of which steps it is made, and not again for every fact.

A step may stop, and then something else may be known than an operation that
goes on relies on. So `Maintains` has a condition for each.

There are facts about two runs of one operation as well. If no step looks at
some part of the state, then neither does the operation, and begun on a state
with another part it does the same and leaves the same with the other part.
`Carries` says that of a change of the state. Some stops may be excepted.

## Main definitions

* `Exec.Maintains`: A condition that an operation keeps until it stops.
* `Exec.Carries`: A change of the state that makes no difference.
* `Exec.Composed`: An operation that is put together from steps of some kind.

## Theorems

* `Exec.Maintains.focus`, `Exec.Carries.focus`: An operation on a part.
* `Exec.Maintains.onError`: An operation whose errors are answered.
* `Exec.Composed.maintains`: What the steps keep the operation keeps.
* `Exec.Composed.carries`: What makes no difference to the steps makes none.
-/

namespace BoundedSimplex

/-- The state is changed, and the journal is not. -/
def Traced.map {σ τ : Type} (f : σ → τ) (t : Traced σ) : Traced τ := ⟨f t.state, t.journal⟩

namespace Exec

variable {σ τ α β γ : Type}

/-- Begun on a state that satisfies `I` the operation ends in one that does so, or
    stops as `Q` says. -/
def Maintains (act : Exec σ α) (I : σ → Prop) (Q : Stop → σ → Prop) : Prop :=
  ∀ s, I s → act.Ends s (fun _ => I) Q

namespace Maintains

variable {act : Exec σ α} {I : σ → Prop} {Q Q' : Stop → σ → Prop}

theorem mono_stop (h : act.Maintains I Q) (hQ : ∀ e s, Q e s → Q' e s) : act.Maintains I Q' :=
  fun s hs => (h s hs).mono_stop hQ

theorem pure (a : α) : (Pure.pure a : Exec σ α).Maintains I Q := fun _ hs => .pure hs

theorem bind {f : α → Exec σ β} (h : act.Maintains I Q) (hf : ∀ a, (f a).Maintains I Q) :
    (act >>= f).Maintains I Q :=
  fun s hs => (h s hs).bind fun a s' hs' => hf a s' hs'

theorem stop (e : Stop) (h : ∀ s, I s → Q e s) :
    (throw e : Exec σ α).Maintains I Q :=
  fun s hs _ => h s hs

theorem emit (e : Event) : (Exec.emit e).Maintains I Q := fun _ hs _ => hs

theorem view (f : σ → α) : (Exec.view f).Maintains I Q := fun _ hs _ => hs

theorem update {f : σ → σ} (h : ∀ s, I s → I (f s)) : (Exec.update f).Maintains I Q :=
  fun s hs _ => h s hs

/-- An operation on a part does to the part what it does alone. -/
theorem focus {get : τ → σ} {set : σ → τ → τ} {I : τ → Prop} {Q : Stop → τ → Prop}
    (h : ∀ t, I t → act.Ends (get t) (fun _ s => I (set s t)) fun e s => Q e (set s t)) :
    (Exec.focus get set act).Maintains I Q :=
  fun t ht => .focus (h t ht)

/-- An error is answered in the state in which it was made. -/
theorem onError {answer : Error → Exec σ α} (h : act.Maintains I Q)
    (hanswer : ∀ e s, Q (.error e) s → (answer e).Ends s (fun _ => I) Q')
    (hQ : ∀ e s, Q e s → Q' e s) :
    (Exec.onError act answer).Maintains I Q' :=
  fun s hs => (h s hs).onError hanswer fun e s' _ => hQ e s'

end Maintains

/-! ### Changes that make no difference -/

/-- Begun on `t` with this change the operation does what it does on `t`, and the
    change is there afterwards. It leaves a state that satisfies `P`, and stops
    that satisfy `E` are excepted. -/
def CarriesAt (P : σ → Prop) (E : Stop → Prop) (f : σ → σ) (act : Exec σ α) (t : Traced σ) : Prop :=
  match act t with
  | .ok a u => act (t.map f) = .ok a (u.map f) ∧ P u.state
  | .error e u => E e ∨ act (t.map f) = .error e (u.map f) ∧ P u.state

/-- The change makes no difference to the operation where it begins on a state
    that satisfies `P`, which it keeps. -/
def Carries (P : σ → Prop) (E : Stop → Prop) (f : σ → σ) (act : Exec σ α) : Prop :=
  ∀ t, P t.state → CarriesAt P E f act t

namespace CarriesAt

variable {P : σ → Prop} {E : Stop → Prop} {f : σ → σ} {act : Exec σ α} {t u : Traced σ}

theorem ok {a : α} (h : CarriesAt P E f act t) (hrun : act t = .ok a u) :
    act (t.map f) = .ok a (u.map f) ∧ P u.state := by
  rw [CarriesAt, hrun] at h
  exact h

theorem error {e : Stop} (h : CarriesAt P E f act t) (hrun : act t = .error e u) :
    E e ∨ act (t.map f) = .error e (u.map f) ∧ P u.state := by
  rw [CarriesAt, hrun] at h
  exact h

/-- One operation after another. -/
theorem bind {g : α → Exec σ β} (h : CarriesAt P E f act t)
    (hg : ∀ a u, act t = .ok a u → P u.state → CarriesAt P E f (g a) u) :
    CarriesAt P E f (act >>= g) t := by
  cases hrun : act t with
  | ok a u =>
      rcases h.ok hrun with ⟨hmapped, hP⟩
      have hrest := hg a u hrun hP
      unfold CarriesAt at hrest ⊢
      rw [bind_ok hrun, bind_ok hmapped]
      exact hrest
  | error e u =>
      unfold CarriesAt
      rw [bind_error hrun]
      exact (h.error hrun).imp id fun hmapped => ⟨bind_error hmapped.1, hmapped.2⟩

/-- What follows does not depend on what is changed. -/
theorem state {g : σ → Exec σ α} (hg : g (f t.state) = g t.state)
    (h : CarriesAt P E f (g t.state) t) : CarriesAt P E f (Exec.state >>= g) t := by
  unfold CarriesAt at h ⊢
  rw [bind_ok (show Exec.state t = .ok t.state t from rfl),
    bind_ok (show Exec.state (t.map f) = .ok (f t.state) (t.map f) from rfl), hg]
  exact h

/-- A change of the whole that is this change of a part. -/
theorem focus {get : τ → σ} {set : σ → τ → τ} {f : τ → τ} {g : σ → σ} {P : τ → Prop}
    {act : Exec σ α} {t : Traced τ}
    (h : CarriesAt (fun _ => True) E g act ⟨get t.state, t.journal⟩)
    (hget : get (f t.state) = g (get t.state))
    (hset : ∀ s, set (g s) (f t.state) = f (set s t.state))
    (hP : ∀ s, P (set s t.state)) : CarriesAt P E f (Exec.focus get set act) t := by
  -- The part of the changed whole is the changed part, so the action runs there as on the part.
  have hpart : act ⟨get (t.map f).state, (t.map f).journal⟩
      = act (Traced.map g ⟨get t.state, t.journal⟩) := by
    rw [show get (t.map f).state = g (get t.state) from hget]
    rfl
  unfold CarriesAt
  cases hrun : act ⟨get t.state, t.journal⟩ with
  | ok a u =>
      rw [focus_ok hrun]
      refine ⟨?_, hP _⟩
      rw [focus_ok (hpart.trans (h.ok hrun).1)]
      exact congrArg (fun s => EStateM.Result.ok a (Traced.mk s u.journal)) (hset _)
  | error e u =>
      rw [focus_error hrun]
      refine (h.error hrun).imp id fun hmapped => ⟨?_, hP _⟩
      rw [focus_error (hpart.trans hmapped.1)]
      exact congrArg (fun s => EStateM.Result.error e (Traced.mk s u.journal)) (hset _)

/-- If no stop is excepted then the two runs differ by the change alone. -/
theorem outcome_final (h : CarriesAt P (fun _ => False) f act t) :
    outcome (act (t.map f)) = outcome (act t) ∧ final (act (t.map f)) = (final (act t)).map f := by
  cases hrun : act t with
  | ok a u =>
      rw [(h.ok hrun).1]
      exact ⟨rfl, rfl⟩
  | error e u =>
      rw [((h.error hrun).resolve_left id).1]
      exact ⟨rfl, rfl⟩

end CarriesAt

namespace Carries

variable {P : σ → Prop} {E : Stop → Prop} {f : σ → σ} {act : Exec σ α}

theorem bind {g : α → Exec σ β} (h : act.Carries P E f) (hg : ∀ a, (g a).Carries P E f) :
    (act >>= g).Carries P E f :=
  fun t ht => (h t ht).bind fun a u _ hu => hg a u hu

theorem pure (a : α) : (Pure.pure a : Exec σ α).Carries P E f := fun _ ht => ⟨rfl, ht⟩

theorem stop (e : Stop) : (throw e : Exec σ α).Carries P E f := fun _ ht => .inr ⟨rfl, ht⟩

theorem ofExcept (x : Except Stop α) : (Exec.ofExcept x).Carries P E f := by
  cases x with
  | ok a => exact pure a
  | error e => exact stop e

theorem word (n : Nat) : (Exec.word n).Carries P E f := ofExcept _

theorem emit (e : Event) : (Exec.emit e).Carries P E f := fun _ ht => ⟨rfl, ht⟩

/-- What is looked at is not changed. -/
theorem view {g : σ → α} (hg : ∀ s, P s → g (f s) = g s) : (Exec.view g).Carries P E f := by
  intro t ht
  refine ⟨?_, ht⟩
  show EStateM.Result.ok (g (f t.state)) _ = _
  rw [hg _ ht]

/-- What follows does not depend on what is changed. -/
theorem state {g : σ → Exec σ α} (hg : ∀ s, P s → g (f s) = g s) (h : ∀ s, (g s).Carries P E f) :
    (Exec.state >>= g).Carries P E f :=
  fun t ht => .state (hg _ ht) (h _ t ht)

/-- Two changes that do not depend on each other. -/
theorem update {g : σ → σ} (hg : ∀ s, P s → g (f s) = f (g s)) (hP : ∀ s, P s → P (g s)) :
    (Exec.update g).Carries P E f := by
  intro t ht
  refine ⟨?_, hP _ ht⟩
  show EStateM.Result.ok () (Traced.mk (g (f t.state)) _) = _
  rw [hg _ ht]
  rfl

theorem refl (act : Exec σ α) : act.Carries (fun _ => True) E id := by
  intro t _
  unfold CarriesAt
  split
  · rename_i hrun
    exact ⟨hrun, trivial⟩
  · rename_i hrun
    exact .inr ⟨hrun, trivial⟩

theorem focus {get : τ → σ} {set : σ → τ → τ} {f : τ → τ} {g : σ → σ} {P : τ → Prop}
    (h : act.Carries (fun _ => True) E g) (hget : ∀ t, get (f t) = g (get t))
    (hset : ∀ s t, set (g s) (f t) = f (set s t)) (hP : ∀ s t, P t → P (set s t)) :
    (Exec.focus get set act).Carries P E f :=
  fun _ ht => .focus (h _ trivial) (hget _) (fun s => hset s _) fun s => hP s _ ht

theorem mono_stop {E' : Stop → Prop} (h : act.Carries P E f) (hE : ∀ e, E e → E' e) :
    act.Carries P E' f := by
  intro t ht
  cases hrun : act t with
  | ok a u =>
      have hok := (h t ht).ok hrun
      unfold CarriesAt
      rw [hrun]
      exact hok
  | error e u =>
      have herror := (h t ht).error hrun
      unfold CarriesAt
      rw [hrun]
      exact herror.imp (hE e) id

/-- Where every stop is excepted a clean-up makes no difference either. -/
theorem guarded {cleanUp : σ → σ} (h : act.Carries P (fun _ => True) f) :
    (Exec.guarded cleanUp act).Carries P (fun _ => True) f := by
  intro t ht
  cases hrun : act t with
  | ok a u =>
      rcases (h t ht).ok hrun with ⟨hmapped, hP⟩
      have hleft : Exec.guarded cleanUp act t = .ok a u := by rw [Exec.guarded, hrun]
      unfold CarriesAt
      rw [hleft, Exec.guarded, hmapped]
      exact ⟨rfl, hP⟩
  -- The clean-up runs on different states here, so a run that stopped has to be one that is
  -- excepted.
  | error e u =>
      have hleft : Exec.guarded cleanUp act t = .error e ⟨cleanUp u.state, u.journal⟩ := by
        rw [Exec.guarded, hrun]
      unfold CarriesAt
      rw [hleft]
      exact .inl trivial

/-- The errors are answered. After one that is excepted the answer stops, and that
    stop is excepted too. -/
theorem onError {answer : Error → Exec σ α} (h : act.Carries P E f)
    (hanswer : ∀ e, (answer e).Carries P E f)
    (hE : ∀ e t, E (.error e) → ∃ e' u, answer e t = .error e' u ∧ E e') :
    (Exec.onError act answer).Carries P E f := by
  intro t ht
  cases hrun : act t with
  | ok a u =>
      have hleft : Exec.onError act answer t = .ok a u := by rw [Exec.onError, hrun]
      rcases (h t ht).ok hrun with ⟨hmapped, hP⟩
      unfold CarriesAt
      rw [hleft, Exec.onError, hmapped]
      exact ⟨rfl, hP⟩
  | error e u =>
      have hstopped := (h t ht).error hrun
      unfold CarriesAt
      unfold Exec.onError
      rw [hrun]
      -- Only an error is answered. Every other way to stop passes through, with what was known of
      -- it.
      cases e with
      | error e =>
          rcases hstopped with hexcepted | ⟨hmapped, hP⟩
          · rcases hE e u hexcepted with ⟨e', v, hanswered, he'⟩
            simp only [hanswered]
            exact .inl he'
          · have hrest := hanswer e u hP
            rw [hmapped]
            exact hrest
      | outOfRange | overflow | endless | outOfFuel =>
          exact hstopped.imp id fun hmapped => ⟨by rw [hmapped.1], hmapped.2⟩

end Carries

/-! ### Operations put together from steps -/

/-- An operation that is put together from steps of some kind, where it may also write to
    the journal and stop for any reason. What all steps keep, the operation keeps; each kind
    of step names what an operation touches, and gives one such statement. -/
inductive Composed (S : ∀ {α : Type}, Exec σ α → Prop) : ∀ {α : Type}, Exec σ α → Prop where
  | step {α : Type} {act : Exec σ α} : S act → Composed S act
  | pure {α : Type} (a : α) : Composed S (Pure.pure a : Exec σ α)
  | stop {α : Type} (e : Stop) : Composed S (throw e : Exec σ α)
  | emit (e : Event) : Composed S (Exec.emit e)
  | bind {α β : Type} {act : Exec σ α} {f : α → Exec σ β} : Composed S act →
      (∀ a, Composed S (f a)) → Composed S (act >>= f)

namespace Composed

variable {S : ∀ {α : Type}, Exec σ α → Prop} {act : Exec σ α} {I : σ → Prop}
  {Q : Stop → σ → Prop}

theorem fail (e : Error) : Composed S (Exec.fail e : Exec σ α) := .stop (.error e)

theorem ofExcept (x : Except Stop α) : Composed S (Exec.ofExcept x) := by
  cases x with
  | ok a => exact .pure a
  | error e => exact .stop e

theorem check (x : Except Error α) : Composed S (Exec.check x) := ofExcept _

theorem entry (x : Option α) : Composed S (Exec.entry x) := ofExcept _

theorem word (n : Nat) : Composed S (Exec.word n) := ofExcept _

theorem forM {f : γ → Exec σ Unit} (h : ∀ c, Composed S (f c)) (l : List γ) :
    Composed S (l.forM f) := by
  induction l with
  | nil => exact .pure ()
  | cons c rest ih => exact .bind (h c) fun _ => ih

theorem mapM {f : γ → Exec σ α} (h : ∀ c, Composed S (f c)) (l : List γ) :
    Composed S (l.mapM f) := by
  induction l with
  | nil => exact .pure []
  | cons c rest ih =>
      rw [List.mapM_cons]
      exact .bind (h c) fun _ => .bind ih fun _ => .pure _

/-- What every step keeps the operation keeps, by induction on how it is composed. `Q` is
    what is left to say where the operation stops. -/
theorem maintains (hstep : ∀ {α : Type} {act : Exec σ α}, S act → act.Maintains I Q)
    (hstop : ∀ e s, I s → Q e s) (h : Composed S act) : act.Maintains I Q := by
  induction h with
  | step hact => exact hstep hact
  | pure a => exact .pure a
  | stop e => exact .stop e (hstop e)
  | emit e => exact .emit e
  | bind _ _ ih ihf => exact ih.bind ihf

/-- A change that makes no difference to any step makes none to the operation. As the
    results of steps are the same, the operation takes the same course. -/
theorem carries {P : σ → Prop} {E : Stop → Prop} {f : σ → σ}
    (hstep : ∀ {α : Type} {act : Exec σ α}, S act → act.Carries P E f)
    (h : Composed S act) : act.Carries P E f := by
  induction h with
  | step hact => exact hstep hact
  | pure a => exact .pure a
  | stop e => exact .stop e
  | emit e => exact .emit e
  | bind _ _ ih ihf => exact ih.bind ihf

end Composed

end Exec

end BoundedSimplex
