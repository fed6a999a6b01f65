import BoundedSimplex.Proofs.Steps

/-!
# Operations That Only Look

Questions that can be asked again.

Asking a solver something leaves traces: a gateway counts the request and the
bytes, and the journal may grow. None of this has any bearing on a later answer.
What does have is the rest of the state, its core, and that an operation only
looks means two things. It leaves the core as it was, and begun on any state with
that core, with whatever journal, it comes to the same. The two together are kept
when operations are put together, where neither is kept alone: what comes second
begins on what the first one left.

There is one way for a question to come to something else after all. A gateway
may refuse one request of its choice, and whether a request is that one depends
on the requests before it. So two runs are compared up to a refusal, and where
nothing is refused they are the same.

An engine of the process changes nothing at all when it is asked. For an engine
on a device it follows from the requests it makes: they read.

## Main definitions

* `Exec.SameUnless`: Two runs come to the same, or one of them was refused.
* `Exec.Looks`: An operation that only looks at the core of a state.
* `Engine.Rereads`: An engine that can be asked again.
* `Device.settled`, `Device.Refuses`: A device without the traces of questions,
  and how its gateway stops an operation.
* `Operation.IsQuestion`: The questions of a caller.

## Theorems

* `Exec.Looks.bind`, `Exec.Looks.focus`: Operations put together.
* `Parallel.looks_of_moves`: An engine on a device that only reads.
* `Sequential.rereads`, `Parallel.rereads`: Both engines can be asked again.
* `Solver.question_looks`: A caller who asks.
-/

namespace BoundedSimplex

namespace Exec

variable {σ τ κ κ' α β γ : Type}

/-- The two runs have the same outcome, or one of them stopped as `E` says. A gateway counts
    requests, so the second time it may refuse what it granted before. -/
def SameUnless (E : Stop → Prop) (r r' : EStateM.Result Stop (Traced σ) α) : Prop :=
  outcome r' = outcome r ∨ ∃ e, E e ∧ (outcome r = .error e ∨ outcome r' = .error e)

/-- The operation leaves the core of the state as it was. Begun on states with the same core
    it has the same outcome, if it is not stopped as `E` says. The core is what the answer
    can depend on: everything in the process, and all of a device but what its gateway
    counts. -/
structure Looks (core : σ → κ) (E : κ → Stop → Prop) (act : Exec σ α) : Prop where
  keeps : ∀ t, core (final (act t)).state = core t.state
  same : ∀ t t', core t'.state = core t.state → SameUnless (E (core t.state)) (act t) (act t')

namespace Looks

variable {core : σ → κ} {E : κ → Stop → Prop} {act : Exec σ α}

theorem pure (a : α) : (Pure.pure a : Exec σ α).Looks core E :=
  ⟨fun _ => rfl, fun _ _ _ => .inl rfl⟩

theorem stop (e : Stop) : (throw e : Exec σ α).Looks core E := ⟨fun _ => rfl, fun _ _ _ => .inl rfl⟩

theorem emit (e : Event) : (Exec.emit e).Looks core E := ⟨fun _ => rfl, fun _ _ _ => .inl rfl⟩

theorem view {f : σ → α} (hf : ∀ s s', core s' = core s → f s' = f s) :
    (Exec.view f).Looks core E :=
  ⟨fun _ => rfl, fun _ _ hcore => .inl (congrArg Except.ok (hf _ _ hcore))⟩

theorem update {f : σ → σ} (hf : ∀ s, core (f s) = core s) : (Exec.update f).Looks core E :=
  ⟨fun t => hf t.state, fun _ _ _ => .inl rfl⟩

theorem ofExcept (x : Except Stop α) : (Exec.ofExcept x).Looks core E := by
  cases x with
  | ok a => exact .pure a
  | error e => exact .stop e

theorem check (x : Except Error α) : (Exec.check x).Looks core E := ofExcept _

theorem entry (x : Option α) : (Exec.entry x).Looks core E := ofExcept _

/-- One operation after another. -/
theorem bind {f : α → Exec σ β} (h : act.Looks core E) (hf : ∀ a, (f a).Looks core E) :
    (act >>= f).Looks core E where
  keeps t := by
    have hkept := h.keeps t
    cases hrun : act t with
    | ok a u =>
        rw [hrun] at hkept
        rw [bind_ok hrun, (hf a).keeps u]
        exact hkept
    | error e u =>
        rw [hrun] at hkept
        rw [bind_error hrun]
        exact hkept
  same t t' hcore := by
    have hfirst := h.same t t' hcore
    have hkept := h.keeps t
    have hkept' := h.keeps t'
    cases hrun : act t with
    | ok a u =>
        rw [hrun] at hfirst hkept
        cases hrun' : act t' with
        | ok a' u' =>
            rw [hrun'] at hfirst hkept'
            rcases hfirst with heq | ⟨e, -, herror | herror⟩
            · cases heq
              -- The second operation begins on the same core, since the first one
              -- has left it.
              have hsecond := (hf a).same u u' (hkept'.trans (hcore.trans hkept.symm))
              rw [show core u.state = core t.state from hkept] at hsecond
              rw [bind_ok hrun, bind_ok hrun']
              exact hsecond
            · cases herror
            · cases herror
        | error e' u' =>
            rw [hrun'] at hfirst
            rcases hfirst with heq | ⟨e, he, herror | herror⟩
            · cases heq
            · cases herror
            · cases herror
              exact .inr ⟨e', he, .inr (by rw [bind_error hrun']; rfl)⟩
    | error e u =>
        rw [hrun] at hfirst
        rcases hfirst with heq | ⟨e', he, herror | herror⟩
        · cases hrun' : act t' with
          | ok a' u' =>
              rw [hrun'] at heq
              cases heq
          | error e' u' =>
              rw [hrun'] at heq
              cases heq
              exact .inl (by rw [bind_error hrun, bind_error hrun']; rfl)
        · cases herror
          exact .inr ⟨e, he, .inl (by rw [bind_error hrun]; rfl)⟩
        · cases hrun' : act t' with
          | ok a' u' =>
              rw [hrun'] at herror
              cases herror
          | error e'' u' =>
              rw [hrun'] at herror
              cases herror
              exact .inr ⟨e', he, .inr (by rw [bind_error hrun']; rfl)⟩

/-- What follows depends on nothing but the core. -/
theorem state {g : σ → Exec σ α} (hg : ∀ s s', core s' = core s → g s' = g s)
    (h : ∀ s, (g s).Looks core E) : (Exec.state >>= g).Looks core E where
  keeps t := (h t.state).keeps t
  same t t' hcore := by
    have hsame := (h t.state).same t t' hcore
    rw [bind_ok (show Exec.state t = .ok t.state t from rfl),
      bind_ok (show Exec.state t' = .ok t'.state t' from rfl), hg _ _ hcore]
    exact hsame

theorem mapM {f : γ → Exec σ α} (h : ∀ c, (f c).Looks core E) (l : List γ) :
    (l.mapM f).Looks core E := by
  induction l with
  | nil => exact .pure []
  | cons c rest ih =>
      rw [List.mapM_cons]
      exact (h c).bind fun _ => ih.bind fun _ => .pure _

/-- An operation on a part. -/
theorem focus {get : τ → σ} {set : σ → τ → τ} {core' : τ → κ'} {E' : κ' → Stop → Prop}
    (h : act.Looks core E) (hget : ∀ t t', core' t' = core' t → core (get t') = core (get t))
    (hset : ∀ s t, core s = core (get t) → core' (set s t) = core' t)
    (hE : ∀ t e, E (core (get t)) e → E' (core' t) e) :
    (Exec.focus get set act).Looks core' E' where
  keeps t := by
    have hkept := h.keeps ⟨get t.state, t.journal⟩
    cases hrun : act ⟨get t.state, t.journal⟩ with
    | ok a u =>
        rw [hrun] at hkept
        rw [focus_ok hrun]
        exact hset _ _ hkept
    | error e u =>
        rw [hrun] at hkept
        rw [focus_error hrun]
        exact hset _ _ hkept
  same t t' hcore := by
    -- What a focused action answers is what it answers on the part.
    have houtcome : ∀ t : Traced τ, outcome (Exec.focus get set act t)
        = outcome (act ⟨get t.state, t.journal⟩) := by
      intro t
      unfold Exec.focus
      cases act ⟨get t.state, t.journal⟩ <;> rfl
    unfold SameUnless
    rw [houtcome, houtcome]
    exact (h.same ⟨get t.state, t.journal⟩ ⟨get t'.state, t'.journal⟩ (hget _ _ hcore)).imp id
      fun ⟨e, he, herror⟩ => ⟨e, hE _ _ he, herror⟩

end Looks

/-- An operation that is put together from steps that only look. -/
theorem Composed.looks {S : ∀ {α : Type}, Exec σ α → Prop} {core : σ → κ} {E : κ → Stop → Prop}
    {act : Exec σ α} (hstep : ∀ {α : Type} {act : Exec σ α}, S act → act.Looks core E)
    (h : Composed S act) : act.Looks core E := by
  induction h with
  | step hact => exact hstep hact
  | pure a => exact .pure a
  | stop e => exact .stop e
  | emit e => exact .emit e
  | bind _ _ ih ihf => exact ih.bind ihf

end Exec

open Exec

/-! ### Devices -/

namespace Device

/-- The device without the traces of the requests. -/
def settled (d : Device) : Device := { d with tally := {}, traffic := {}, launches := [] }

/-- How the gateway stops an operation, if it does: with the error of the request
    that it refuses. -/
def Refuses (d : Device) (e : Stop) : Prop :=
  ∃ x, d.refuse = some x ∧ e = .error x.error

theorem ask_looks (r : Request) : (ask r).Looks settled Refuses := by
  refine ⟨fun t => ?_, fun t t' hcore => ?_⟩
  · cases hrefusal : t.state.refusal? r with
    | some e => rw [ask_refused hrefusal]; rfl
    | none => rw [ask_served hrefusal]; rfl
  · -- Either device may have counted up to the request to refuse.
    cases hrefusal : t.state.refusal? r with
    | some e =>
        have hrefuse := refusal?_eq_some_iff.mp hrefusal
        exact .inr ⟨_, ⟨_, hrefuse, rfl⟩, .inl (by rw [ask_refused hrefusal]; rfl)⟩
    | none =>
        cases hrefusal' : t'.state.refusal? r with
        | some e =>
            have hrefuse' := refusal?_eq_some_iff.mp hrefusal'
            have hrefuse := (congrArg Device.refuse hcore).symm.trans hrefuse'
            exact .inr ⟨_, ⟨_, hrefuse, rfl⟩, .inr (by rw [ask_refused hrefusal']; rfl)⟩
        | none =>
            refine .inl ?_
            rw [ask_served hrefusal, ask_served hrefusal']
            rfl

theorem onHost_looks {α : Type} {act : Exec HostDevice α} (h : act.Looks id fun _ _ => False) :
    (onHost act).Looks settled Refuses := by
  refine .focus h (fun d d' hcore => ?_) (fun s d hs => ?_) fun _ _ => False.elim
  · have hhost := congrArg Device.host hcore
    exact hhost
  · rw [show s = d.host from hs]

theorem read_looks (id offset count : Nat) : (read id offset count).Looks settled Refuses :=
  (ask_looks _).bind fun _ =>
    (onHost_looks (.state (fun _ _ hsame => by rw [id_eq, id_eq] at hsame; rw [hsame])
      fun _ => .check _)).bind fun _ => Looks.bind (.update fun _ => rfl) fun _ => .pure _

end Device

/-! ### Engines -/

/-- An engine that can be asked again: its questions only look. There is one line for each
    question a caller can put to the engine itself. -/
structure Engine.Rereads {β α κ : Type} [Engine β α] (core : Workspace β α → κ)
    (E : κ → Stop → Prop) : Prop where
  tableau : ∀ w w', core w' = core w → w'.tableau = w.tableau
  basis : ∀ w w', core w' = core w → w'.basis = w.basis
  lower : ∀ v, (Workspace.onEngine (BoundStore.lower v) :
    Exec (Workspace β α) (Option α)).Looks core E
  upper : ∀ v, (Workspace.onEngine (BoundStore.upper v) :
    Exec (Workspace β α) (Option α)).Looks core E
  assignment : ∀ v, (Workspace.onEngine (BoundStore.assignment v) :
    Exec (Workspace β α) α).Looks core E
  assignments : ∀ count, (Workspace.onEngine (BoundStore.assignments count) :
    Exec (Workspace β α) (Array α)).Looks core E
  role : ∀ v, (Workspace.onEngine (BoundStore.role v) : Exec (Workspace β α) Role).Looks core E
  entry : ∀ row col, (Engine.entry row col : Exec (Workspace β α) α).Looks core E

/-- The engine in the process leaves no traces when it is asked. -/
theorem Sequential.rereads {α : Type} [Scalar α] :
    Engine.Rereads (β := Sequential α) (id : Workspace (Sequential α) α → _) fun _ _ => False := by
  -- A table is two levels inside the workspace, and nothing outside of it is touched on the way.
  have hpart : ∀ {γ : Type} {act : Exec (Bounds.Table α) γ}, act.Looks id (fun _ _ => False) →
      (Workspace.onEngine (Exec.focus (·.bounds) (fun t s => { s with bounds := t }) act) :
        Exec (Workspace (Sequential α) α) γ).Looks id fun _ _ => False := by
    intro γ act hact
    have hengine : (Exec.focus (·.bounds) (fun t s => { s with bounds := t }) act :
        Exec (Sequential α) γ).Looks id fun _ _ => False := by
      refine .focus hact ?_ ?_ fun _ _ => id
      · rintro s _ rfl
        rfl
      · rintro _ s rfl
        rfl
    refine .focus hengine ?_ ?_ fun _ _ => id
    · rintro w _ rfl
      rfl
    · rintro _ w rfl
      rfl
  -- Reading an entry is a function of the table.
  have hread : ∀ {γ : Type} (v : Nat) (f : Variable α → γ),
      (Bounds.Table.read v f).Looks id fun _ _ => False := by
    intro γ v f
    refine .state ?_ fun _ => .check _
    rintro t _ rfl
    rfl
  refine ⟨?_, ?_, fun v => hpart (hread v _), fun v => hpart (hread v _),
    fun v => hpart (hread v _), fun count => hpart (.state ?_ fun _ => .check _),
    fun v => hpart (hread v _), fun row col => .state ?_ fun _ => .check _⟩
  all_goals rintro w _ rfl; rfl

namespace Parallel

/-- The workspace without the traces of the requests. -/
def Desk.settled (w : Desk) : Desk := w.withDevice w.engine.device.settled

/-- How the gateway of the device stops an operation. -/
def Desk.Refuses (w : Desk) (e : Stop) : Prop := w.engine.device.Refuses e

/-- A request that needs no right reads. -/
theorem asks_looks {p : Parallel} {α : Type} {act : Exec Device α}
    (h : p.Asks (fun _ => False) act) : act.Looks Device.settled Device.Refuses := by
  cases h with
  | setArg _ _ _ hright _ => exact hright.elim
  | launch _ _ hright => exact hright.elim
  | write _ _ _ hright => exact hright.elim
  | read s offset count => exact Device.read_looks _ offset count
  | look hright _ => exact hright.elim

/-- A handle with its device, without the traces of the requests. -/
def settled (a : Attached Parallel) : Attached Parallel := ⟨a.handle, a.device.settled⟩

/-- What depends on the handle only looks if it does so for every handle. -/
theorem attached_looks {α : Type} {act : Parallel → Exec Device α}
    (h : ∀ p, (act p).Looks Device.settled Device.Refuses) :
    (Attached.onDevice act).Looks settled fun a e => a.device.Refuses e := by
  unfold Attached.onDevice
  refine Looks.bind (.view fun a a' hcore => ?_) fun p =>
    .focus (h p) (fun a a' hcore => ?_) (fun d a hd => ?_) fun _ _ => id
  · have hhandle := congrArg Attached.handle hcore
    exact hhandle
  · have hdevice := congrArg Attached.device hcore
    exact hdevice
  · show (⟨a.handle, d.settled⟩ : Attached Parallel) = ⟨a.handle, a.device.settled⟩
    rw [hd]

/-- An engine that only reads only looks. Each read leaves the memory as it was, and the
    traces of it are no part of the core. -/
theorem looks_of_moves {α : Type} {act : Exec Desk α} (h : Composed (Moves fun _ => False) act) :
    act.Looks Desk.settled Desk.Refuses := by
  refine Composed.looks (fun hstep => ?_) h
  -- The rights allow no change, so what is left are requests that read and looks at the
  -- workspace.
  cases hstep with
  | @device _ act hact =>
      unfold onDevice Workspace.onEngine
      refine .focus (attached_looks fun p => Composed.looks asks_looks (hact p))
        (fun w w' hcore => ?_) (fun a w ha => ?_) fun _ _ => id
      · have hengine := congrArg Workspace.engine hcore
        exact hengine
      · show { w with engine := settled a } = { w with engine := settled w.engine }
        rw [ha]
  | change hright _ => exact hright.elim
  | basis _ hright => exact hright.elim
  | @view _ f hf =>
      refine .view fun w w' hcore => ?_
      have hsettled := congrArg f hcore
      rw [Desk.settled, Desk.settled, hf, hf] at hsettled
      exact hsettled

theorem readSide_composed {p : Parallel} {R : Right → Prop} (v : Nat) (bit : UInt32) (s : Slot) :
    Composed (p.Asks R) (p.bounds.readSide v bit (p.slot s)) := by
  refine .bind (.check _) fun _ => .bind (get_composed .bounded v) fun mask => ?_
  split
  · exact .pure _
  · exact .bind (get_composed s v) fun _ => .pure _

/-- The engine on a device reads. -/
theorem rereads : Engine.Rereads (β := Attached Parallel) Desk.settled Desk.Refuses := by
  -- A question about the variables is one of the store on the device.
  have hbounds : ∀ {γ : Type} {act : Bounds.Resident → Exec Device γ},
      (∀ p : Parallel, Composed (p.Asks fun _ => False) (act p.bounds)) →
      (Workspace.onEngine (Exec.focus
        (fun a => (⟨a.handle.bounds, a.device⟩ : Attached Bounds.Resident))
        (fun r a => { a with device := r.device }) (Attached.onDevice act)) :
          Exec Desk γ).Looks Desk.settled Desk.Refuses := by
    intro γ act hact
    rw [onEngine_onDevice_eq]
    exact looks_of_moves (onDevice_composed hact)
  refine ⟨fun w w' hcore => ?_, fun w w' hcore => ?_,
    fun v => hbounds fun _ => readSide_composed v hasLower .lower,
    fun v => hbounds fun _ => readSide_composed v hasUpper .upper,
    fun v => hbounds fun _ => readValue_composed v,
    fun count => hbounds fun _ => readValues_composed count,
    fun v => hbounds fun _ => readRole_composed v,
    fun row col => looks_of_moves (entry_composed row col)⟩
  · have htableau := congrArg Workspace.tableau hcore
    exact htableau
  · have hbasis := congrArg Workspace.basis hcore
    exact hbasis

end Parallel

/-! ### Questions of a caller -/

/-- The operations with which a caller asks about the solver. -/
def Operation.IsQuestion {α : Type} : Operation α → Prop
  | .build _ | .observe _ | .takeNotices | .solve _ => False
  | .assignment _ | .solution | .role _ | .entry _ _ | .render | .account => True

namespace Solver

variable {β α κ : Type}

/-- What questions depend on: the core of the workspace, and what the solver keeps
    besides. Observers and notices are not part of it. -/
def core (core : Workspace β α → κ) (s : Solver β α) : κ × Config α × Phase × Array PivotStep :=
  (core s.workspace, s.config, s.phase, s.history)

variable {core : Workspace β α → κ} {E : κ → Stop → Prop}

theorem onWorkspace_looks {γ : Type} {act : Exec (Workspace β α) γ} (h : act.Looks core E) :
    (onWorkspace act).Looks (Solver.core core) fun k => E k.1 :=
  .focus h (fun _ _ hcore => congrArg Prod.fst hcore)
    (fun _ s hw => congrArg (·, s.config, s.phase, s.history) hw) fun _ _ => id

variable [Engine β α] (hR : Engine.Rereads core E)
include hR

/-- Solvers with one core have one tableau and one basis. -/
theorem workspace_eq {s s' : Solver β α} (h : s'.core core = s.core core) :
    s'.workspace.tableau = s.workspace.tableau ∧ s'.workspace.basis = s.workspace.basis :=
  ⟨hR.tableau _ _ (congrArg Prod.fst h), hR.basis _ _ (congrArg Prod.fst h)⟩

theorem entry_looks (row col : Nat) :
    (entry row col : Exec (Solver β α) α).Looks (Solver.core core) fun k => E k.1 := by
  refine .state (fun s s' hcore => ?_) fun _ => Looks.bind (.check _) fun _ =>
    Looks.bind (.check _) fun _ => onWorkspace_looks (hR.entry row col)
  rcases workspace_eq hR hcore with ⟨htableau, -⟩
  simp only [maxRows, numCols, htableau]

theorem solution_looks :
    (solution : Exec (Solver β α) (Array α)).Looks (Solver.core core) fun k => E k.1 := by
  refine .state (fun s s' hcore => ?_) fun s => onWorkspace_looks (hR.assignments s.numCols)
  rcases workspace_eq hR hcore with ⟨htableau, -⟩
  simp only [numCols, htableau]

/-- Solvers with one core give one account of themselves. -/
theorem account_of_core {s s' : Solver β α} (h : s'.core core = s.core core) :
    s'.account = s.account := by
  rcases workspace_eq hR h with ⟨htableau, hbasis⟩
  have hkept := congrArg Prod.snd h
  have hconfig : s'.config = s.config := congrArg Prod.fst hkept
  have hphase : s'.phase = s.phase := congrArg (·.2.1) hkept
  have hhistory : s'.history = s.history := congrArg (·.2.2) hkept
  simp only [account, numRows, maxRows, numCols, numVars, verdict?, basis, htableau, hbasis,
    hconfig, hphase, hhistory]

variable [Scalar α]

theorem label_looks (v : Nat) :
    (label v : Exec (Solver β α) String).Looks (Solver.core core) fun k => E k.1 := by
  refine .state (fun s s' hcore => ?_) fun _ =>
    Looks.bind (onWorkspace_looks (hR.assignment v)) fun _ => .pure _
  rcases workspace_eq hR hcore with ⟨htableau, -⟩
  simp only [numCols, htableau]

theorem renderRow_looks (row : Nat) :
    (renderRow row : Exec (Solver β α) String).Looks (Solver.core core) fun k => E k.1 := by
  refine .state (fun s s' hcore => ?_) fun _ => Looks.bind (.entry _) fun v =>
    (label_looks hR v).bind fun _ =>
    (Looks.mapM (fun col => (entry_looks hR row col).bind fun _ => .pure _) _).bind fun _ => .pure _
  rcases workspace_eq hR hcore with ⟨htableau, hbasis⟩
  simp only [numCols, basis, htableau, hbasis]

theorem render_looks :
    (render : Exec (Solver β α) String).Looks (Solver.core core) fun k => E k.1 := by
  refine .state (fun s s' hcore => ?_) fun _ =>
    (Looks.mapM (fun _ => Looks.bind (.entry _) fun v => label_looks hR v) _).bind fun _ =>
    (Looks.mapM (renderRow_looks hR) _).bind fun _ => .pure _
  rcases workspace_eq hR hcore with ⟨htableau, hbasis⟩
  simp only [numCols, numRows, basis, htableau, hbasis]

/-- A caller who asks only looks. Some questions go to the engine and some are answered by
    the solver alone. -/
theorem question_looks {o : Operation α} (ho : o.IsQuestion) :
    (perform o : Exec (Solver β α) (Answer α)).Looks (Solver.core core) fun k => E k.1 := by
  cases o with
  | build _ | observe _ | takeNotices | solve _ => exact ho.elim
  | assignment v => exact (onWorkspace_looks (hR.assignment v)).bind fun _ => .pure _
  | solution => exact (solution_looks hR).bind fun _ => .pure _
  | role v => exact (onWorkspace_looks (hR.role v)).bind fun _ => .pure _
  | entry row col => exact (entry_looks hR row col).bind fun _ => .pure _
  | render => exact (render_looks hR).bind fun _ => .pure _
  | account => exact Looks.bind (.view fun _ _ hcore => account_of_core hR hcore) fun _ => .pure _

end Solver

end BoundedSimplex
