import BoundedSimplex.Proofs.Outcome

/-!
# Operations Side by Side

Two operations on different states that end alike.

Two engines keep different things in their states, so it makes no sense to ask
whether a request leaves both in the same state. What can be asked is whether
whoever made the request could tell them apart: whether both gave the same
result, or both stopped for the same reason. `Alike` says that of two runs,
together with a relation between the states that they left, since that is what
has to be known for the next request.

The rules follow the way operations are put together. What is known of the two
halves of a sequence is known of the sequence; two operations on parts are
alike if they are so on the parts. Where only one operation is looked at, what
it gives or replies is taken from `Gives` and `Replies`, and if both sides
reply the same they are alike.

## Main definitions

* `Exec.Alike`: Two runs that end alike.
* `Exec.outcome`: The result of a run, or why it stopped.

## Theorems

* `Exec.Alike.outcome_eq`: Runs that end alike have the same outcome.
* `Exec.Alike.bind`: One operation after another.
* `Exec.Alike.of_gives`, `Exec.Alike.of_replies`: What is known of each side.
* `Exec.Alike.onError`: Operations whose errors are answered.
* `Exec.Alike.mapM`: An operation for each member of a list.
-/

namespace BoundedSimplex

namespace Exec

variable {σ τ ρ κ α β : Type}

/-- The result of a run, or why it stopped. -/
def outcome : EStateM.Result Stop (Traced σ) α → Except Stop α
  | .ok a _ => .ok a
  | .error e _ => .error e

theorem value?_of_outcome {r : EStateM.Result Stop (Traced σ) α} {a : α} (h : outcome r = .ok a) :
    value? r = some a := by
  cases r with
  | ok a' u =>
      cases h
      rfl
  | error e u => cases h

/-- An operation for each member of a list begins with the first one. -/
theorem outcome_mapM_cons {f : β → Exec σ α} {c : β} {a : α} {t u : Traced σ} (l : List β)
    (h : f c t = .ok a u) :
    outcome ((c :: l).mapM f t) = (outcome (l.mapM f u)).map (a :: ·) := by
  rw [List.mapM_cons, bind_ok h]
  cases hrest : l.mapM f u with
  | ok rest v =>
      rw [bind_ok hrest]
      rfl
  | error e v =>
      rw [bind_error hrest]
      rfl

theorem outcome_mapM_stop {f : β → Exec σ α} {c : β} {e : Stop} {t u : Traced σ} (l : List β)
    (h : f c t = .error e u) : outcome ((c :: l).mapM f t) = .error e := by
  rw [List.mapM_cons, bind_error h]
  rfl

/-- What an operation replies is its outcome. -/
theorem Replies.outcome_eq {act : Exec σ α} {t : Traced σ} {r : Except Error α} {P : σ → Prop}
    (h : act.Replies t.state r P) : outcome (act t) = Stop.orError r := by
  cases r with
  | ok a =>
      rcases h t.journal with ⟨_, s, j, hrun, rfl, -⟩
      rw [show act t = _ from hrun]
      rfl
  | error e =>
      rcases h t.journal with ⟨s, j, hrun, -⟩
      rw [show act t = _ from hrun]
      rfl

/-- Two runs that end alike, both with the same result or both for the same reason, and
    leave states that are related. That one run ends well is therefore as good as that both
    do. -/
inductive Alike (R : α → σ → τ → Prop) (E : Stop → σ → τ → Prop) :
    EStateM.Result Stop (Traced σ) α → EStateM.Result Stop (Traced τ) α → Prop where
  | ok {a : α} {u : Traced σ} {v : Traced τ} : R a u.state v.state → Alike R E (.ok a u) (.ok a v)
  | error {e : Stop} {u : Traced σ} {v : Traced τ} : E e u.state v.state →
      Alike R E (.error e u) (.error e v)

namespace Alike

variable {R Q : α → σ → τ → Prop} {E F : Stop → σ → τ → Prop}
  {r : EStateM.Result Stop (Traced σ) α} {r' : EStateM.Result Stop (Traced τ) α}
  {act : Exec σ α} {act' : Exec τ α} {t : Traced σ} {t' : Traced τ}

theorem outcome_eq (h : Alike R E r r') : outcome r = outcome r' := by
  cases h <;> rfl

theorem mono (h : Alike R E r r') (hR : ∀ a s s', R a s s' → Q a s s')
    (hE : ∀ e s s', E e s s' → F e s s') : Alike Q F r r' := by
  cases h with
  | ok hr => exact .ok (hR _ _ _ hr)
  | error he => exact .error (hE _ _ _ he)

/-- One operation after another. What follows may use that the first one ended as it did, on
    both sides; without this a result could not be used to choose what comes next. -/
theorem bind {f : α → Exec σ β} {f' : α → Exec τ β} {Q : β → σ → τ → Prop}
    (h : Alike R E (act t) (act' t'))
    (hf : ∀ a u u', act t = .ok a u → R a u.state u'.state → Alike Q E (f a u) (f' a u')) :
    Alike Q E ((act >>= f) t) ((act' >>= f') t') := by
  generalize hrun : act t = x at h
  generalize hrun' : act' t' = x' at h
  cases h with
  | ok hr =>
      rw [bind_ok hrun, bind_ok hrun']
      exact hf _ _ _ hrun hr
  | error he =>
      rw [bind_error hrun, bind_error hrun']
      exact .error he

theorem pure {a : α} (h : R a t.state t'.state) :
    Alike R E ((Pure.pure a : Exec σ α) t) ((Pure.pure a : Exec τ α) t') :=
  .ok h

/-- Each side may look at its own state. -/
theorem state {f : σ → Exec σ α} {f' : τ → Exec τ α}
    (h : Alike R E (f t.state t) (f' t'.state t')) :
    Alike R E ((Exec.state >>= f) t) ((Exec.state >>= f') t') :=
  h

/-- Each side may look at a part of its own state. -/
theorem view {γ δ : Type} {g : σ → γ} {g' : τ → δ} {f : γ → Exec σ α} {f' : δ → Exec τ α}
    (h : Alike R E (f (g t.state) t) (f' (g' t'.state) t')) :
    Alike R E ((Exec.view g >>= f) t) ((Exec.view g' >>= f') t') :=
  h

/-- Each side may change its own state. -/
theorem update {f : σ → σ} {f' : τ → τ} {R : Unit → σ → τ → Prop}
    (h : R () (f t.state) (f' t'.state)) :
    Alike R E (Exec.update f t) (Exec.update f' t') :=
  .ok h

/-- The two journals need not be the same. -/
theorem emit {e e' : Event} {R : Unit → σ → τ → Prop} (h : R () t.state t'.state) :
    Alike R E (Exec.emit e t) (Exec.emit e' t') :=
  .ok h

theorem check {x : Except Error α} (hok : ∀ a, x = .ok a → R a t.state t'.state)
    (herror : ∀ e, x = .error e → E (.error e) t.state t'.state) :
    Alike R E (Exec.check x t) (Exec.check x t') := by
  cases x with
  | ok a => exact .ok (hok a rfl)
  | error e => exact .error (herror e rfl)

/-- Two checks that pass, each with a value of its own. -/
theorem checked {γ δ : Type} {x : Except Error γ} {x' : Except Error δ} {a : γ} {a' : δ}
    {f : γ → Exec σ α} {f' : δ → Exec τ α} (hx : x = .ok a) (hx' : x' = .ok a')
    (h : Alike R E (f a t) (f' a' t')) :
    Alike R E ((Exec.check x >>= f) t) ((Exec.check x' >>= f') t') := by
  subst hx hx'
  exact h

/-- Two operations that give the same. -/
theorem of_gives {P : α → σ → Prop} {P' : α → τ → Prop} (h : act.Gives t.state P)
    (h' : act'.Gives t'.state P') (hR : ∀ a a' s s', P a s → P' a' s' → a = a' ∧ R a s s') :
    Alike R E (act t) (act' t') := by
  rcases h t.journal with ⟨a, s, j, hrun, hP⟩
  rcases h' t'.journal with ⟨a', s', j', hrun', hP'⟩
  rcases hR a a' s s' hP hP' with ⟨rfl, hr⟩
  rw [show act t = _ from hrun, show act' t' = _ from hrun']
  exact .ok hr

/-- Two operations that stop for the same reason. -/
theorem of_stops {e : Stop} {P : σ → Prop} {P' : τ → Prop} (h : act.Stops t.state e P)
    (h' : act'.Stops t'.state e P') (hE : ∀ s s', P s → P' s' → E e s s') :
    Alike R E (act t) (act' t') := by
  rcases h t.journal with ⟨s, j, hrun, hP⟩
  rcases h' t'.journal with ⟨s', j', hrun', hP'⟩
  rw [show act t = _ from hrun, show act' t' = _ from hrun']
  exact .error (hE s s' hP hP')

/-- Two operations that reply the same. -/
theorem of_replies {x : Except Error α} {P : σ → Prop} {P' : τ → Prop}
    (h : act.Replies t.state x P) (h' : act'.Replies t'.state x P')
    (hok : ∀ a s s', x = .ok a → P s → P' s' → R a s s')
    (herror : ∀ e s s', x = .error e → P s → P' s' → E (.error e) s s') :
    Alike R E (act t) (act' t') := by
  cases x with
  | ok a =>
      refine of_gives h h' ?_
      rintro _ _ s s' ⟨rfl, hs⟩ ⟨rfl, hs'⟩
      exact ⟨rfl, hok _ s s' rfl hs hs'⟩
  | error e => exact of_stops h h' fun s s' hs hs' => herror e s s' rfl hs hs'

/-- Operations on parts are alike if they are so on the parts. -/
theorem focus {get : ρ → σ} {set : σ → ρ → ρ} {get' : κ → τ} {set' : τ → κ → κ} {t : Traced ρ}
    {t' : Traced κ} {R : α → ρ → κ → Prop} {E : Stop → ρ → κ → Prop}
    (h : Alike (fun a s s' => R a (set s t.state) (set' s' t'.state))
      (fun e s s' => E e (set s t.state) (set' s' t'.state))
      (act ⟨get t.state, t.journal⟩) (act' ⟨get' t'.state, t'.journal⟩)) :
    Alike R E (Exec.focus get set act t) (Exec.focus get' set' act' t') := by
  unfold Exec.focus
  generalize act ⟨get t.state, t.journal⟩ = x at h
  generalize act' ⟨get' t'.state, t'.journal⟩ = x' at h
  cases h with
  | ok hr => exact .ok hr
  | error he => exact .error he

/-- Errors are answered alike, and all other stops stay. A stop that is no error has to be
    the same on both sides for this. -/
theorem onError {answer : Error → Exec σ α} {answer' : Error → Exec τ α}
    (h : Alike R E (act t) (act' t'))
    (hanswer : ∀ e u u', E (.error e) u.state u'.state → Alike R F (answer e u) (answer' e u'))
    (hstop : ∀ e s s', (∀ err, e ≠ .error err) → E e s s' → F e s s') :
    Alike R F (Exec.onError act answer t) (Exec.onError act' answer' t') := by
  unfold Exec.onError
  generalize act t = x at h
  generalize act' t' = x' at h
  cases h with
  | ok hr => exact .ok hr
  | @error e u u' he =>
      -- Only an error reaches the answer. The other stops go through, for different reasons but
      -- in the same way.
      cases e with
      | error err => exact hanswer err u u' he
      | outOfRange => exact .error (hstop _ _ _ (by simp) he)
      | overflow => exact .error (hstop _ _ _ (by simp) he)
      | endless => exact .error (hstop _ _ _ (by simp) he)
      | outOfFuel => exact .error (hstop _ _ _ (by simp) he)

/-- An operation for each member of a list keeps what each one keeps. By induction on the
    list, so the two runs need to be related at the beginning only. -/
theorem mapM {f : β → Exec σ α} {f' : β → Exec τ α} {I : σ → τ → Prop} {l : List β}
    (hstep : ∀ c ∈ l, ∀ {t t'}, I t.state t'.state →
      Alike (fun _ s s' => I s s') E (f c t) (f' c t')) :
    ∀ {t t'}, I t.state t'.state →
      Alike (fun _ s s' => I s s') E (l.mapM f t) (l.mapM f' t') := by
  induction l with
  | nil =>
      intro t t' hI
      exact pure hI
  | cons c rest ih =>
      intro t t' hI
      simp only [List.mapM_cons]
      refine (hstep c List.mem_cons_self hI).bind fun _ u u' _ hu => ?_
      refine (ih (fun d hd => hstep d (List.mem_cons_of_mem c hd)) hu).bind fun _ v v' _ hv => ?_
      exact pure hv

end Alike

end Exec

end BoundedSimplex
