import BoundedSimplex.Exec

/-!
# Outcomes of Operations

How an operation ends, whatever the journal held before.

An operation changes a state and writes to the journal. No operation ever
reads the journal, so what it does to the state can be said without it:
`Gives` is the statement that an operation ends with a result, and what is
known of the result and the state afterwards, and `Stops` is the statement
that it stops and why. Both are statements about every journal to begin with.

Both are total. `Gives` is not a statement about the operations that happen to
end well: it says that this one does. Operations are functions, so one that
gives something cannot stop, and `Gives.result` reads off a run what is known
of it.

## Main definitions

* `Exec.Gives`: The operation ends with a result.
* `Exec.Stops`: The operation stops.
* `Exec.Replies`: The operation ends as a result or an error says.
* `Exec.Leads`: The operation goes on as another one.
* `Exec.Ends`: The operation ends or stops, with something known either way.
* `Exec.Yields`: A step with a known result.
* `Exec.value?`, `Exec.final`, `Exec.endsWith`, `Exec.stopsWith`: What a run
  left.

## Theorems

* `Exec.Gives.bind`, `Exec.Stops.bind`: One operation after another.
* `Exec.Gives.result`: What is known of a run that ended.
* `Exec.Gives.focus`, `Exec.focus_bind`: An operation on a part.
* `Exec.Gives.forM`: An operation for each member of a list.
-/

namespace BoundedSimplex

namespace Exec

variable {σ τ α β : Type}

/-- The operation comes to an end without an error, with a result and a state of which `P`
    holds, whatever the journal says. Total correctness: that it ends is part of the
    statement. -/
def Gives (act : Exec σ α) (s : σ) (P : α → σ → Prop) : Prop :=
  ∀ j : Journal, ∃ a s' j', act ⟨s, j⟩ = .ok a ⟨s', j'⟩ ∧ P a s'

/-- The operation stops for the reason `e`, in a state of which `P` holds, whatever the
    journal says. -/
def Stops (act : Exec σ α) (s : σ) (e : Stop) (P : σ → Prop) : Prop :=
  ∀ j : Journal, ∃ s' j', act ⟨s, j⟩ = .error e ⟨s', j'⟩ ∧ P s'

/-- Begun on `s` the operation goes on as `rest` does on a state that satisfies
    `P`, and then ends as `rest` does. -/
def Leads (act : Exec σ α) (s : σ) (rest : Exec σ α) (P : σ → Prop) : Prop :=
  ∀ j : Journal, ∃ s' j', act ⟨s, j⟩ = rest ⟨s', j'⟩ ∧ P s'

theorem bind_ok {act : Exec σ α} {f : α → Exec σ β} {t u : Traced σ} {a : α}
    (h : act t = .ok a u) : (act >>= f) t = f a u := by
  simp only [Bind.bind, EStateM.bind, h]

theorem bind_error {act : Exec σ α} {f : α → Exec σ β} {t u : Traced σ} {e : Stop}
    (h : act t = .error e u) : (act >>= f) t = .error e u := by
  simp only [Bind.bind, EStateM.bind, h]

/-- What an operation in two parts does if it ends: each part ends. -/
theorem bind_eq_ok {act : Exec σ α} {f : α → Exec σ β} {t v : Traced σ} {b : β}
    (h : (act >>= f) t = .ok b v) : ∃ a u, act t = .ok a u ∧ f a u = .ok b v := by
  cases hact : act t with
  | ok a u => exact ⟨a, u, rfl, by rwa [bind_ok hact] at h⟩
  | error e u =>
      rw [bind_error hact] at h
      exact absurd h (by simp only [reduceCtorEq, not_false_eq_true])

/-- A number that is taken fits, and nothing else happens. -/
theorem word_eq_ok {n m : Nat} {t u : Traced σ} (h : (Exec.word n : Exec σ Nat) t = .ok m u) :
    n < UInt32.size ∧ m = n ∧ u = t := by
  by_cases hn : n < UInt32.size
  · rw [Exec.word, fitting, if_pos hn] at h
    cases h
    exact ⟨hn, rfl, rfl⟩
  · rw [Exec.word, fitting, if_neg hn] at h
    cases h

theorem focus_ok {get : τ → σ} {set : σ → τ → τ} {act : Exec σ α} {t : Traced τ} {u : Traced σ}
    {a : α} (h : act ⟨get t.state, t.journal⟩ = .ok a u) :
    Exec.focus get set act t = .ok a ⟨set u.state t.state, u.journal⟩ := by
  simp only [Exec.focus, h]

theorem focus_error {get : τ → σ} {set : σ → τ → τ} {act : Exec σ α} {t : Traced τ} {u : Traced σ}
    {e : Stop} (h : act ⟨get t.state, t.journal⟩ = .error e u) :
    Exec.focus get set act t = .error e ⟨set u.state t.state, u.journal⟩ := by
  simp only [Exec.focus, h]

/-- An operation in two parts on a part of a state that can be read back and
    replaced again. -/
theorem focus_bind (get : τ → σ) (set : σ → τ → τ) (hget : ∀ s t, get (set s t) = s)
    (hset : ∀ s s' t, set s' (set s t) = set s' t) (act : Exec σ α) (f : α → Exec σ β) :
    Exec.focus get set (act >>= f)
      = Exec.focus get set act >>= fun a => Exec.focus get set (f a) := by
  funext t
  cases hact : act ⟨get t.state, t.journal⟩ with
  | ok a u =>
      rw [bind_ok (focus_ok hact)]
      simp only [Exec.focus, bind_ok hact, hget, hset]
  | error e u =>
      rw [bind_error (focus_error hact)]
      exact focus_error (bind_error hact)

/-! ### Operations that give a result -/

namespace Gives

variable {act : Exec σ α} {s : σ} {P Q : α → σ → Prop}

theorem mono (h : act.Gives s P) (hPQ : ∀ a s', P a s' → Q a s') : act.Gives s Q := by
  intro j
  rcases h j with ⟨a, s', j', hrun, hP⟩
  exact ⟨a, s', j', hrun, hPQ a s' hP⟩

/-- One operation after another. -/
theorem bind {f : α → Exec σ β} {R : β → σ → Prop} (h : act.Gives s P)
    (hf : ∀ a s', P a s' → (f a).Gives s' R) : (act >>= f).Gives s R := by
  intro j
  rcases h j with ⟨a, s', j', hrun, hP⟩
  rcases hf a s' hP j' with ⟨b, s'', j'', hrun', hR⟩
  exact ⟨b, s'', j'', by rw [bind_ok hrun, hrun'], hR⟩

/-- An operation ends in one way only, so what it gives is what it gave. -/
theorem result (h : act.Gives s P) {j j' : Journal} {a : α} {s' : σ}
    (hrun : act ⟨s, j⟩ = .ok a ⟨s', j'⟩) : P a s' := by
  rcases h j with ⟨a₁, s₁, j₁, hrun₁, hP⟩
  rw [hrun₁] at hrun
  cases hrun
  exact hP

theorem not_error (h : act.Gives s P) {j : Journal} {e : Stop} {u : Traced σ} :
    act ⟨s, j⟩ ≠ .error e u := by
  rcases h j with ⟨a, s', j', hrun, -⟩
  rw [hrun]
  simp only [ne_eq, reduceCtorEq, not_false_eq_true]

theorem pure {a : α} (h : P a s) : (Pure.pure a : Exec σ α).Gives s P :=
  fun j => ⟨a, s, j, rfl, h⟩

theorem update {f : σ → σ} {P : Unit → σ → Prop} (h : P () (f s)) : (Exec.update f).Gives s P :=
  fun j => ⟨(), f s, j, rfl, h⟩

theorem emit {e : Event} {P : Unit → σ → Prop} (h : P () s) : (Exec.emit e).Gives s P :=
  fun j => ⟨(), s, j.push e, rfl, h⟩

theorem ofExcept {x : Except Stop α} {a : α} (hx : x = .ok a) (h : P a s) :
    (Exec.ofExcept x).Gives s P := by
  subst hx
  exact fun j => ⟨a, s, j, rfl, h⟩

theorem check {x : Except Error α} {a : α} (hx : x = .ok a) (h : P a s) :
    (Exec.check x).Gives s P :=
  ofExcept (a := a) (by rw [hx]; rfl) h

/-- An operation on a part does to the part what it does alone. -/
theorem focus {get : τ → σ} {set : σ → τ → τ} {t : τ} {P : α → τ → Prop}
    (h : act.Gives (get t) fun a s' => P a (set s' t)) : (Exec.focus get set act).Gives t P := by
  intro j
  rcases h j with ⟨a, s', j', hrun, hP⟩
  refine ⟨a, set s' t, j', ?_, hP⟩
  simp only [Exec.focus, hrun]

/-- Nothing is cleaned up after an operation that ends. -/
theorem guarded {cleanUp : σ → σ} (h : act.Gives s P) : (Exec.guarded cleanUp act).Gives s P := by
  intro j
  rcases h j with ⟨a, s', j', hrun, hP⟩
  refine ⟨a, s', j', ?_, hP⟩
  simp only [Exec.guarded, hrun]

/-- An operation for each member of a list keeps what each one keeps. -/
theorem forM {γ : Type} {f : γ → Exec σ Unit} (I : List γ → σ → Prop)
    (hstep : ∀ c rest s, I (c :: rest) s → (f c).Gives s fun _ s' => I rest s') (l : List γ) :
    ∀ s, I l s → (l.forM f).Gives s fun _ s' => I [] s' := by
  induction l with
  | nil => exact fun s hI => pure hI
  | cons c rest ih =>
      intro s hI
      exact bind (hstep c rest s hI) fun _ s' hI' => ih s' hI'

end Gives

/-! ### Operations that stop -/

namespace Stops

variable {act : Exec σ α} {s : σ} {e : Stop} {P Q : σ → Prop}

theorem mono (h : act.Stops s e P) (hPQ : ∀ s', P s' → Q s') : act.Stops s e Q := by
  intro j
  rcases h j with ⟨s', j', hrun, hP⟩
  exact ⟨s', j', hrun, hPQ s' hP⟩

/-- What stops is not followed by anything. -/
theorem bind {f : α → Exec σ β} (h : act.Stops s e P) : (act >>= f).Stops s e P := by
  intro j
  rcases h j with ⟨s', j', hrun, hP⟩
  exact ⟨s', j', bind_error hrun, hP⟩

/-- Something may come before it. -/
theorem after {R : α → σ → Prop} {f : α → Exec σ β} (h : act.Gives s R)
    (hf : ∀ a s', R a s' → (f a).Stops s' e P) : (act >>= f).Stops s e P := by
  intro j
  rcases h j with ⟨a, s', j', hrun, hR⟩
  rcases hf a s' hR j' with ⟨s'', j'', hrun', hP⟩
  exact ⟨s'', j'', by rw [bind_ok hrun, hrun'], hP⟩

theorem not_ok (h : act.Stops s e P) {j : Journal} {a : α} {u : Traced σ} :
    act ⟨s, j⟩ ≠ .ok a u := by
  rcases h j with ⟨s', j', hrun, -⟩
  rw [hrun]
  simp only [ne_eq, reduceCtorEq, not_false_eq_true]

/-- What is known of a run that stopped. -/
theorem error_eq (h : act.Stops s e P) {j : Journal} {e' : Stop} {u : Traced σ}
    (hrun : act ⟨s, j⟩ = .error e' u) : e' = e ∧ P u.state := by
  rcases h j with ⟨s', j', hrun', hP⟩
  rw [hrun'] at hrun
  cases hrun
  exact ⟨rfl, hP⟩

theorem check {x : Except Error α} {err : Error} (hx : x = .error err) (h : P s) :
    (Exec.check x).Stops s (.error err) P := by
  subst hx
  exact fun j => ⟨s, j, rfl, h⟩

theorem fail {err : Error} (h : P s) : (Exec.fail err : Exec σ α).Stops s (.error err) P :=
  fun j => ⟨s, j, rfl, h⟩

theorem word {n : Nat} (hover : UInt32.size ≤ n) (h : P s) :
    (Exec.word n).Stops s .overflow P := by
  intro j
  rw [Exec.word, fitting, if_neg (Nat.not_lt_of_le hover)]
  exact ⟨s, j, rfl, h⟩

theorem focus {get : τ → σ} {set : σ → τ → τ} {t : τ} {P : τ → Prop}
    (h : act.Stops (get t) e fun s' => P (set s' t)) : (Exec.focus get set act).Stops t e P := by
  intro j
  rcases h j with ⟨s', j', hrun, hP⟩
  refine ⟨set s' t, j', ?_, hP⟩
  simp only [Exec.focus, hrun]

end Stops

/-! ### Operations that reply -/

/-- Begun on `s` the operation ends with the result or stops with the error,
    and the state afterwards satisfies `P`. -/
def Replies (act : Exec σ α) (s : σ) (r : Except Error α) (P : σ → Prop) : Prop :=
  match r with
  | .ok a => act.Gives s fun x s' => x = a ∧ P s'
  | .error e => act.Stops s (.error e) P

namespace Replies

variable {act : Exec σ α} {s : σ} {r : Except Error α} {P Q : σ → Prop}

theorem ok {a : α} (h : act.Gives s fun x s' => x = a ∧ P s') : act.Replies s (.ok a) P := h

theorem mono (h : act.Replies s r P) (hPQ : ∀ s', P s' → Q s') : act.Replies s r Q := by
  cases r with
  | ok a => exact Gives.mono h fun _ s' hs => ⟨hs.1, hPQ s' hs.2⟩
  | error e => exact Stops.mono h hPQ

theorem focus {get : τ → σ} {set : σ → τ → τ} {t : τ} {P : τ → Prop}
    (h : act.Replies (get t) r fun s' => P (set s' t)) :
    (Exec.focus get set act).Replies t r P := by
  cases r with
  | ok a => exact Gives.focus h
  | error e => exact Stops.focus h

/-- A guarded index decides whether there is a result. -/
theorem of_index {a : α} {index size : Nat}
    (hlt : index < size → act.Gives s fun x s' => x = a ∧ P s')
    (hge : size ≤ index → act.Stops s (.error (.indexOutOfBounds index size)) P) :
    act.Replies s ((Error.checkIndex index size).map fun _ => a) P := by
  unfold Error.checkIndex
  by_cases h : index < size
  · rw [if_pos h]
    exact hlt h
  · rw [if_neg h]
    exact hge (Nat.le_of_not_lt h)

end Replies

/-! ### Operations whose errors are answered -/

theorem Gives.onError {act : Exec σ α} {answer : Error → Exec σ α} {s : σ} {P : α → σ → Prop}
    (h : act.Gives s P) : (Exec.onError act answer).Gives s P := by
  intro j
  rcases h j with ⟨a, s', j', hrun, hP⟩
  exact ⟨a, s', j', by simp only [Exec.onError, hrun], hP⟩

theorem Stops.onError {act : Exec σ α} {answer : Error → Exec σ α} {s : σ} {e : Error}
    {P : σ → Prop} {Q : α → σ → Prop} (h : act.Stops s (.error e) P)
    (hanswer : ∀ s', P s' → (answer e).Gives s' Q) : (Exec.onError act answer).Gives s Q := by
  intro j
  rcases h j with ⟨s', j', hrun, hP⟩
  rcases hanswer s' hP j' with ⟨a, s'', j'', hrun', hQ⟩
  exact ⟨a, s'', j'', by simp only [Exec.onError, hrun, hrun'], hQ⟩

/-! ### Operations that go on as another one -/

namespace Leads

variable {act rest : Exec σ α} {s : σ} {P : σ → Prop}

theorem refl (h : P s) : act.Leads s act P := fun j => ⟨s, j, rfl, h⟩

/-- Something may come before it. -/
theorem after {β : Type} {first : Exec σ β} {f : β → Exec σ α} {R : β → σ → Prop}
    (h : first.Gives s R) (hf : ∀ b s', R b s' → (f b).Leads s' rest P) :
    (first >>= f).Leads s rest P := by
  intro j
  rcases h j with ⟨b, s', j', hrun, hR⟩
  rcases hf b s' hR j' with ⟨s'', j'', hrun', hP⟩
  exact ⟨s'', j'', by rw [bind_ok hrun, hrun'], hP⟩

theorem gives {Q : α → σ → Prop} (h : act.Leads s rest P) (hrest : ∀ s', P s' → rest.Gives s' Q) :
    act.Gives s Q := by
  intro j
  rcases h j with ⟨s', j', hrun, hP⟩
  rcases hrest s' hP j' with ⟨a, s'', j'', hrun', hQ⟩
  exact ⟨a, s'', j'', by rw [hrun, hrun'], hQ⟩

theorem stops {e : Stop} {Q : σ → Prop} (h : act.Leads s rest P)
    (hrest : ∀ s', P s' → rest.Stops s' e Q) : act.Stops s e Q := by
  intro j
  rcases h j with ⟨s', j', hrun, hP⟩
  rcases hrest s' hP j' with ⟨s'', j'', hrun', hQ⟩
  exact ⟨s'', j'', by rw [hrun, hrun'], hQ⟩

end Leads

/-! ### Operations that may end either way -/

/-- Begun on `s` the operation ends with a result that satisfies `P`, or stops
    for a reason that satisfies `Q`, either with the state afterwards. -/
def Ends (act : Exec σ α) (s : σ) (P : α → σ → Prop) (Q : Stop → σ → Prop) : Prop :=
  ∀ j : Journal, match act ⟨s, j⟩ with
    | .ok a t => P a t.state
    | .error e t => Q e t.state

theorem Gives.ends {act : Exec σ α} {s : σ} {P : α → σ → Prop} {Q : Stop → σ → Prop}
    (h : act.Gives s P) : act.Ends s P Q := by
  intro j
  rcases h j with ⟨a, s', j', hrun, hP⟩
  rw [hrun]
  exact hP

theorem Stops.ends {act : Exec σ α} {s : σ} {e : Stop} {P : α → σ → Prop} {Q : Stop → σ → Prop}
    (h : act.Stops s e (Q e)) : act.Ends s P Q := by
  intro j
  rcases h j with ⟨s', j', hrun, hQ⟩
  rw [hrun]
  exact hQ

namespace Ends

variable {act : Exec σ α} {s : σ} {P : α → σ → Prop} {Q Q' : Stop → σ → Prop}

/-- What is known of a run that ended with a result. -/
theorem result (h : act.Ends s P Q) {j : Journal} {a : α} {u : Traced σ}
    (hrun : act ⟨s, j⟩ = .ok a u) : P a u.state := by
  have hj := h j
  rw [hrun] at hj
  exact hj

/-- What is known of a run that stopped. -/
theorem stopped (h : act.Ends s P Q) {j : Journal} {e : Stop} {u : Traced σ}
    (hrun : act ⟨s, j⟩ = .error e u) : Q e u.state := by
  have hj := h j
  rw [hrun] at hj
  exact hj

/-- What an operation that ends with a result leaves, if it ends. -/
theorem gives {P' : α → σ → Prop} (h : act.Ends s P Q) (h' : act.Gives s P') :
    act.Gives s fun a s' => P' a s' ∧ P a s' := by
  intro j
  rcases h' j with ⟨a, s', j', hrun, hP'⟩
  exact ⟨a, s', j', hrun, hP', h.result hrun⟩

theorem pure {a : α} (h : P a s) : (Pure.pure a : Exec σ α).Ends s P Q := (Gives.pure h).ends

theorem fail {err : Error} (h : Q (.error err) s) : (Exec.fail err : Exec σ α).Ends s P Q :=
  (Stops.fail h).ends

theorem mono {P' : α → σ → Prop} (h : act.Ends s P Q) (hP : ∀ a s', P a s' → P' a s')
    (hQ : ∀ e s', Q e s' → Q' e s') : act.Ends s P' Q' := by
  intro j
  have hj := h j
  cases hrun : act ⟨s, j⟩ with
  | ok a t =>
      rw [hrun] at hj
      exact hP a t.state hj
  | error e t =>
      rw [hrun] at hj
      exact hQ e t.state hj

theorem mono_stop (h : act.Ends s P Q) (hQ : ∀ e s', Q e s' → Q' e s') : act.Ends s P Q' :=
  h.mono (fun _ _ ha => ha) hQ

/-- One operation after another, which stops where the first one that stops
    does. -/
theorem bind {f : α → Exec σ β} {R : β → σ → Prop} (h : act.Ends s P Q)
    (hf : ∀ a s', P a s' → (f a).Ends s' R Q) : (act >>= f).Ends s R Q := by
  intro j
  have hj := h j
  cases hrun : act ⟨s, j⟩ with
  | ok a t =>
      rw [hrun] at hj
      rw [bind_ok hrun]
      exact hf a t.state hj t.journal
  | error e t =>
      rw [hrun] at hj
      rw [bind_error hrun]
      exact hj

/-- An operation on a part does to the part what it does alone. -/
theorem focus {get : τ → σ} {set : σ → τ → τ} {t : τ} {P : α → τ → Prop} {Q : Stop → τ → Prop}
    (h : act.Ends (get t) (fun a s' => P a (set s' t)) fun e s' => Q e (set s' t)) :
    (Exec.focus get set act).Ends t P Q := by
  intro j
  have hj := h j
  unfold Exec.focus
  cases hrun : act ⟨get t, j⟩ with
  | ok a u =>
      rw [hrun] at hj
      exact hj
  | error e u =>
      rw [hrun] at hj
      exact hj

/-- The clean-up comes after what stopped. -/
theorem guarded {cleanUp : σ → σ} (h : act.Ends s P fun e s' => Q e (cleanUp s')) :
    (Exec.guarded cleanUp act).Ends s P Q := by
  intro j
  have hj := h j
  cases hrun : act ⟨s, j⟩ with
  | ok a t =>
      have hguarded : Exec.guarded cleanUp act ⟨s, j⟩ = .ok a t := by
        simp only [Exec.guarded, hrun]
      rw [hrun] at hj
      rw [hguarded]
      exact hj
  | error e t =>
      have hguarded : Exec.guarded cleanUp act ⟨s, j⟩ = .error e ⟨cleanUp t.state, t.journal⟩ := by
        simp only [Exec.guarded, hrun]
      rw [hrun] at hj
      rw [hguarded]
      exact hj

/-- An error is answered in the state in which it was made, and all other stops
    stay. -/
theorem onError {answer : Error → Exec σ α} (h : act.Ends s P Q)
    (hanswer : ∀ e s', Q (.error e) s' → (answer e).Ends s' P Q')
    (hQ : ∀ e s', (∀ err, e ≠ .error err) → Q e s' → Q' e s') :
    (Exec.onError act answer).Ends s P Q' := by
  intro j
  have hj := h j
  unfold Exec.onError
  cases hrun : act ⟨s, j⟩ with
  | ok a t =>
      rw [hrun] at hj
      exact hj
  | error e t =>
      rw [hrun] at hj
      cases e with
      | error e => exact hanswer e t.state hj t.journal
      | outOfRange | overflow | endless | outOfFuel => exact hQ _ _ nofun hj

end Ends

/-! ### Single steps -/

/-- Begun on `s` the operation ends with this result and leaves this state,
    whatever it writes to the journal. -/
def Yields (act : Exec σ α) (s : σ) (a : α) (s' : σ) : Prop :=
  ∀ j : Journal, ∃ j', act ⟨s, j⟩ = .ok a ⟨s', j'⟩

namespace Yields

variable {act : Exec σ α} {s s' : σ} {a : α}

theorem state : (Exec.state : Exec σ σ).Yields s s s := fun j => ⟨j, rfl⟩

theorem view {f : σ → α} : (Exec.view f).Yields s (f s) s := fun j => ⟨j, rfl⟩

theorem update {f : σ → σ} : (Exec.update f).Yields s () (f s) := fun j => ⟨j, rfl⟩

theorem emit {e : Event} : (Exec.emit e : Exec σ Unit).Yields s () s := fun j => ⟨j.push e, rfl⟩

theorem ofExcept {x : Except Stop α} (hx : x = .ok a) : (Exec.ofExcept x).Yields s a s := by
  subst hx
  exact fun j => ⟨j, rfl⟩

theorem check {x : Except Error α} (hx : x = .ok a) : (Exec.check x).Yields s a s :=
  ofExcept (by rw [hx]; rfl)

theorem entry {x : Option α} (hx : x = some a) : (Exec.entry x).Yields s a s :=
  ofExcept (by rw [hx]; rfl)

theorem word {n : Nat} (h : n < UInt32.size) : (Exec.word n).Yields s n s := ofExcept (if_pos h)

/-! What comes after such a step is what the whole does. -/

theorem leads {f : α → Exec σ β} {rest : Exec σ β} {P : σ → Prop} (h : act.Yields s a s')
    (hf : (f a).Leads s' rest P) : (act >>= f).Leads s rest P := by
  intro j
  rcases h j with ⟨j', hrun⟩
  rw [bind_ok hrun]
  exact hf j'

theorem gives {f : α → Exec σ β} {P : β → σ → Prop} (h : act.Yields s a s')
    (hf : (f a).Gives s' P) : (act >>= f).Gives s P := by
  intro j
  rcases h j with ⟨j', hrun⟩
  rw [bind_ok hrun]
  exact hf j'

theorem stops {f : α → Exec σ β} {e : Stop} {P : σ → Prop} (h : act.Yields s a s')
    (hf : (f a).Stops s' e P) : (act >>= f).Stops s e P := by
  intro j
  rcases h j with ⟨j', hrun⟩
  rw [bind_ok hrun]
  exact hf j'

theorem ends {f : α → Exec σ β} {P : β → σ → Prop} {Q : Stop → σ → Prop} (h : act.Yields s a s')
    (hf : (f a).Ends s' P Q) : (act >>= f).Ends s P Q := by
  intro j
  rcases h j with ⟨j', hrun⟩
  rw [bind_ok hrun]
  exact hf j'

end Yields

/-- What goes on with a number that fits, and stops with one that does not. -/
theorem Ends.word_bind {act : Nat → Exec σ β} {n : Nat} {s : σ} {P : β → σ → Prop}
    {Q : Stop → σ → Prop} (hfits : n < UInt32.size → (act n).Ends s P Q)
    (hover : UInt32.size ≤ n → Q .overflow s) : (Exec.word n >>= act).Ends s P Q := by
  rcases Nat.lt_or_ge n UInt32.size with hlt | hge
  · exact (Yields.word hlt).ends (hfits hlt)
  · have hstops : (Exec.word n).Stops s .overflow (Q .overflow) := .word hge (hover hge)
    exact hstops.bind.ends

/-! ### What a run left -/

/-- The result of a run, if it ended with one. -/
def value? : EStateM.Result Stop (Traced σ) α → Option α
  | .ok a _ => some a
  | .error _ _ => none

/-- The state that a run left behind. -/
def final : EStateM.Result Stop (Traced σ) α → Traced σ
  | .ok _ t => t
  | .error _ t => t

/-- What is known of a run whatever its outcome. -/
theorem Ends.final {act : Exec σ α} {t : Traced σ} {P : σ → Prop}
    (h : act.Ends t.state (fun _ => P) fun _ => P) : P (Exec.final (act t)).state := by
  have hj := h t.journal
  cases hrun : act t with
  | ok a u =>
      rw [show act ⟨t.state, t.journal⟩ = _ from hrun] at hj
      exact hj
  | error e u =>
      rw [show act ⟨t.state, t.journal⟩ = _ from hrun] at hj
      exact hj

/-- The run ended with a result, and a test accepts what it left. -/
def endsWith (r : EStateM.Result Stop (Traced σ) α) (test : α → Traced σ → Bool) : Bool :=
  match r with
  | .ok a t => test a t
  | .error _ _ => false

theorem exists_of_endsWith {r : EStateM.Result Stop (Traced σ) α} {test : α → Traced σ → Bool}
    (h : endsWith r test = true) : ∃ a t, r = .ok a t ∧ test a t = true := by
  cases r with
  | ok a t => exact ⟨a, t, rfl, h⟩
  | error e t => cases h

/-- The run stopped, and a test accepts what it left. -/
def stopsWith (r : EStateM.Result Stop (Traced σ) α) (test : Stop → Traced σ → Bool) : Bool :=
  match r with
  | .ok _ _ => false
  | .error e t => test e t

theorem exists_of_stopsWith {r : EStateM.Result Stop (Traced σ) α} {test : Stop → Traced σ → Bool}
    (h : stopsWith r test = true) : ∃ e t, r = .error e t ∧ test e t = true := by
  cases r with
  | ok a t => cases h
  | error e t => exact ⟨e, t, rfl, h⟩

theorem eq_ok_of_value? {r : EStateM.Result Stop (Traced σ) α} {a : α} (h : value? r = some a) :
    r = .ok a (final r) := by
  cases r with
  | ok a' t =>
      cases h
      rfl
  | error e t => cases h

end Exec

end BoundedSimplex
