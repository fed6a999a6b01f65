import BoundedSimplex.Proofs.Footprint

/-!
# Settings

What a device is set up with, and that nothing changes it.

A device has limits, the gateway reports something about it, and the gateway may
refuse a request. All of this is decided when the device is set up. Requests and
releases change the memory and the kernels, and they are counted, but a device
that reports the truth and refuses nothing goes on doing so. Neither does an
engine forget what the device reported when it was made. So wherever a solver
stands, its name and what can be made on its device are what they were.

## Main definitions

* `Device.Truthful`: A device that reports the truth and refuses nothing.
* `Solver.Informed`: A solver on such a device.

## Theorems

* `Device.Truthful.parallel_ends`: Making an engine leaves the settings alone.
* `Device.Truthful.drop`, `Solver.Informed.answered`: So do dropping one and using it.
* `Solver.perform_maintains`: What the engine keeps an operation keeps.
-/

namespace BoundedSimplex

open Exec

namespace Exec.Maintains

variable {σ α : Type} {I : σ → Prop} {Q : Stop → σ → Prop}

theorem state : (Exec.state : Exec σ σ).Maintains I Q := fun _ hs _ => hs

theorem ofExcept (x : Except Stop α) (h : ∀ e s, I s → Q e s) :
    (Exec.ofExcept x : Exec σ α).Maintains I Q := by
  cases x with
  | ok a => exact .pure a
  | error e => exact .stop e (h e)

theorem check (x : Except Error α) (h : ∀ e s, I s → Q e s) :
    (Exec.check x : Exec σ α).Maintains I Q := ofExcept _ h

end Exec.Maintains

/-! ### The device -/

namespace HostDevice

/-- An operation that leaves the limits alone, however it ends. -/
def Limited {α : Type} (act : Exec HostDevice α) : Prop :=
  ∀ limits, act.Maintains (fun h => h.limits = limits) fun _ h => h.limits = limits

theorem allocate_limited (bytes : Nat) : Limited (allocate bytes) := fun _ =>
  Maintains.bind .state fun _ => Maintains.bind (.update fun _ h => h) fun _ =>
    Maintains.bind (.emit _) fun _ => .pure _

theorem compile_limited (source : KernelSource) (entry : String) :
    Limited (compile source entry) := by
  intro limits
  unfold compile
  split
  · exact .stop _ fun _ h => h
  · split
    · exact .stop _ fun _ h => h
    · exact Maintains.bind .state fun _ => Maintains.bind (.update fun _ h => h) fun _ => .pure _

theorem setArg_limited (id i : Nat) (a : Arg) : Limited (setArg id i a) := fun _ =>
  Maintains.bind .state fun _ => Maintains.bind (.check _ fun _ _ h => h) fun _ =>
    Maintains.bind (.check _ fun _ _ h => h) fun _ => .update fun _ h => h

theorem launch_limited (id : Nat) (size : LaunchSize) : Limited (launch id size) := fun _ =>
  Maintains.bind .state fun _ => Maintains.bind (.check _ fun _ _ h => h) fun _ =>
    Maintains.bind (.check _ fun _ _ h => h) fun _ => Maintains.bind (.emit _) fun _ =>
      Maintains.bind (.update fun _ h => h) fun _ => .ofExcept _ fun _ _ h => h

theorem write_limited (id offset : Nat) (data : Words) : Limited (write id offset data) := fun _ =>
  Maintains.bind .state fun _ => Maintains.bind (.check _ fun _ _ h => h) fun _ =>
    .update fun _ h => h

theorem read_limited (id offset count : Nat) : Limited (read id offset count) := fun _ =>
  Maintains.bind .state fun _ => .check _ fun _ _ h => h

end HostDevice

/-! ### The gateway -/

namespace Device

/-- A device with these limits that reports the truth and refuses nothing. -/
structure Truthful (limits : Limits) (d : Device) : Prop where
  refuse : d.refuse = none
  same : d.host.limits = limits
  info : d.info = (ofLimits limits).info

theorem truthful_toHost (h : HostDevice) : (toHost h).Truthful h.limits := ⟨rfl, rfl, rfl⟩

/-- A request that leaves a device as truthful as it was. -/
def Faithful {α : Type} (act : Exec Device α) : Prop :=
  ∀ limits, act.Maintains (Truthful limits) fun _ => Truthful limits

namespace Truthful

variable {limits : Limits} {d : Device}

theorem serves (h : d.Truthful limits) : d.Serves d.host := ⟨h.refuse, rfl⟩

theorem info_eq (h : d.Truthful limits) : d.info = d.host.info := by
  rw [h.info, ← h.same]
  rfl

theorem release (h : d.Truthful limits) (id : Nat) : (d.release id).Truthful limits :=
  ⟨h.refuse, h.same, h.info⟩

theorem releaseKernel (h : d.Truthful limits) (id : Nat) : (d.releaseKernel id).Truthful limits :=
  ⟨h.refuse, h.same, h.info⟩

end Truthful

/-! ### Requests -/

theorem ask_faithful (r : Request) : Faithful (ask r) := by
  intro limits
  refine Maintains.bind .state fun d => Maintains.bind
    (.update fun _ hd => ⟨hd.refuse, hd.same, hd.info⟩) fun _ => ?_
  split
  · exact .stop _ fun _ hd => hd
  · exact .pure ()

theorem onHost_faithful {α : Type} {act : Exec HostDevice α} (h : HostDevice.Limited act) :
    Faithful (onHost act) := fun limits =>
  .focus fun d hd => (h limits d.host hd.same).mono
    (fun _ _ hsame => ⟨hd.refuse, hsame, hd.info⟩)
    fun _ _ hsame => ⟨hd.refuse, hsame, hd.info⟩

theorem allocate_faithful (bytes : Nat) : Faithful (allocate bytes) := fun limits =>
  (ask_faithful _ limits).bind fun _ =>
    (onHost_faithful (HostDevice.allocate_limited bytes) limits).bind fun _ =>
      Maintains.bind (.update fun _ hd => ⟨hd.refuse, hd.same, hd.info⟩) fun _ => .pure _

theorem compile_faithful (source : KernelSource) (entry : String) :
    Faithful (compile source entry) := fun limits =>
  (ask_faithful _ limits).bind fun _ =>
    onHost_faithful (HostDevice.compile_limited source entry) limits

theorem setArg_faithful (kernel i : Nat) (a : Arg) : Faithful (setArg kernel i a) := fun limits =>
  (ask_faithful _ limits).bind fun _ =>
    onHost_faithful (HostDevice.setArg_limited kernel i a) limits

theorem launch_faithful (kernel : Nat) (size : LaunchSize) : Faithful (launch kernel size) :=
  fun limits => (ask_faithful _ limits).bind fun _ =>
    Maintains.bind (.update fun _ hd => ⟨hd.refuse, hd.same, hd.info⟩) fun _ =>
      onHost_faithful (HostDevice.launch_limited kernel size) limits

theorem write_faithful (id offset : Nat) (data : Words) : Faithful (write id offset data) :=
  fun limits => (ask_faithful _ limits).bind fun _ =>
    (onHost_faithful (HostDevice.write_limited id offset data) limits).bind fun _ =>
      .update fun _ hd => ⟨hd.refuse, hd.same, hd.info⟩

theorem read_faithful (id offset count : Nat) : Faithful (read id offset count) := fun limits =>
  (ask_faithful _ limits).bind fun _ =>
    (onHost_faithful (HostDevice.read_limited id offset count) limits).bind fun _ =>
      Maintains.bind (.update fun _ hd => ⟨hd.refuse, hd.same, hd.info⟩) fun _ => .pure _

/-- Whatever an engine asks of its device. -/
theorem asks_faithful {p : Parallel} {R : Right → Prop} {α : Type} {act : Exec Device α}
    (h : p.Asks R act) : Faithful act := by
  cases h with
  | setArg e i a _ _ => exact setArg_faithful _ i a
  | launch e size _ => exact launch_faithful _ size
  | write s offset data _ => exact write_faithful _ offset data
  | read s offset count => exact read_faithful _ offset count
  | look _ _ => exact fun _ => .view _

/-! ### Engines that are made and dropped -/

theorem zeroed_faithful (n : Nat) : Faithful (Buffer.zeroed n) := fun limits =>
  (allocate_faithful _ limits).bind fun _ => .pure _

theorem ofWords_faithful (ws : Words) : Faithful (Buffer.ofWords ws) := by
  intro limits
  unfold Buffer.ofWords
  split
  · exact zeroed_faithful 0 limits
  · exact (allocate_faithful _ limits).bind fun _ => (write_faithful _ _ _ limits).bind fun _ =>
      .pure _

theorem compileAll_faithful (source : KernelSource) (es : List Entry) :
    Faithful (Parallel.compileAll source es) := by
  intro limits
  induction es with
  | nil => exact .pure _
  | cons e rest ih =>
      refine (compile_faithful _ _ limits).bind fun id => Maintains.bind (fun d hd => ?_)
        fun _ => .pure _
      exact .guarded ((ih d hd).mono_stop fun _ _ hd' => hd'.releaseKernel id)

section Guarding

variable {limits : Limits} {d : Device} {α : Type} {act : Exec Device α} {P : α → Device → Prop}
  (h : act.Ends d P fun _ d' => d'.Truthful limits)
include h

theorem guarding_ends (b : Buffer) : (b.guarding act).Ends d P fun _ d' => d'.Truthful limits :=
  .guarded (h.mono_stop fun _ _ hd => hd.release b.id)

theorem boundsGuarding_ends (r : Bounds.Resident) :
    (r.guarding act).Ends d P fun _ d' => d'.Truthful limits :=
  .guarded (h.mono_stop fun _ _ hd =>
    ((((hd.release _).release _).release _).release _).release _)

end Guarding

theorem boundsAllocate_faithful (maxRows numCols : Nat) :
    Faithful (Bounds.Resident.allocate maxRows numCols) := by
  intro limits d h
  refine (zeroed_faithful _ limits d h).bind fun lower d₁ h₁ => guarding_ends ?_ lower
  refine (zeroed_faithful _ limits d₁ h₁).bind fun upper d₂ h₂ => guarding_ends ?_ upper
  refine (ofWords_faithful _ limits d₂ h₂).bind fun bounded d₃ h₃ => guarding_ends ?_ bounded
  refine (zeroed_faithful _ limits d₃ h₃).bind fun values d₄ h₄ => guarding_ends ?_ values
  exact (ofWords_faithful _ limits d₄ h₄).bind fun _ _ h₅ => .pure h₅

namespace Truthful

variable {limits : Limits} {d : Device}

/-- An engine knows what its device reported. -/
theorem create_ends (h : d.Truthful limits) (config : Config Binary32) (maxRows numCols : Nat) :
    (Parallel.create config maxRows numCols).Ends d
      (fun p d' => p.info = (ofLimits limits).info ∧ d'.Truthful limits)
      fun _ d' => d'.Truthful limits := by
  unfold Parallel.create
  refine Exec.Yields.view.ends ?_
  split
  · exact .fail h
  · refine Exec.Ends.word_bind (fun _ => ?_) fun _ => h
    refine (compileAll_faithful _ _ limits d h).bind fun kernels d₁ h₁ => ?_
    refine (boundsAllocate_faithful _ _ limits d₁ h₁).bind fun bounds d₂ h₂ => ?_
    refine Exec.Ends.bind (P := fun p d' => p.info = (ofLimits limits).info ∧ d'.Truthful limits) ?_
      fun _ _ hp => Exec.Yields.emit.ends (.pure hp)
    refine boundsGuarding_ends ?_ bounds
    refine (zeroed_faithful _ limits d₂ h₂).bind fun tableau d₃ h₃ => guarding_ends ?_ tableau
    refine (ofWords_faithful _ limits d₃ h₃).bind fun colVar d₄ h₄ => guarding_ends ?_ colVar
    refine (ofWords_faithful _ limits d₄ h₄).bind fun rowVar d₅ h₅ => guarding_ends ?_ rowVar
    refine (ofWords_faithful _ limits d₅ h₅).bind fun place d₆ h₆ => guarding_ends ?_ place
    refine (zeroed_faithful _ limits d₆ h₆).bind fun output d₇ h₇ => guarding_ends ?_ output
    refine (zeroed_faithful _ limits d₇ h₇).bind fun first d₈ h₈ => guarding_ends ?_ first
    exact (zeroed_faithful _ limits d₈ h₈).bind fun _ _ h₉ => .pure ⟨h.info, h₉⟩

theorem parallel_ends (h : d.Truthful limits) (maxRows numCols : Nat) (config : Config Binary32) :
    (Solver.parallel maxRows numCols config).Ends d
      (fun s d' => s.workspace.engine.info = (ofLimits limits).info ∧ d'.Truthful limits)
      fun _ d' => d'.Truthful limits :=
  (Maintains.check _ (fun _ _ hd => hd) d h).bind fun _ _ h₁ =>
    (h₁.create_ends config maxRows numCols).bind fun _ _ h₂ => Exec.Yields.emit.ends (.pure h₂)

/-- Dropping a solver only empties places of memory and kernels. The limits of the device
    and what it reports are not touched. -/
theorem drop (h : d.Truthful limits) (s : Solver Parallel Binary32) :
    (s.drop d).Truthful limits := by
  unfold Solver.drop Parallel.release Bounds.Resident.release
  dsimp only
  refine List.foldlRecOn _ _ ?_ fun d' hd b _ => hd.release b.id
  have hkernels := List.foldlRecOn s.workspace.engine.kernels
    (fun d (q : Entry × Nat) => d.releaseKernel q.2) h fun d' hd q _ => hd.releaseKernel q.2
  exact ((((hkernels.release _).release _).release _).release _).release _

end Truthful

end Device

/-! ### Solvers -/

namespace Solver

variable {limits : Limits} {t u : Traced (Solver (Attached Parallel) Binary32)}

/-- A change of the system. -/
theorem call_maintains {I : Parallel.Desk → Prop}
    (hwork : ∀ {γ : Type} {act : Exec Parallel.Desk γ},
      Composed (Parallel.Moves fun _ => True) act → act.Maintains I fun _ => I)
    (hrows : ∀ (w : Parallel.Desk) (x : Tableau Binary32), I w → I { w with tableau := x })
    (c : BuildCall Binary32) :
    (call c : Exec (Solver (Attached Parallel) Binary32) Unit).Maintains (fun s => I s.workspace)
      fun _ s => I s.workspace := by
  cases c with
  | bounds v e =>
      exact maintains_of_moves hwork (fun _ _ hw => hw)
        (edit_moves v e trivial trivial trivial)
  | constraint coeffs =>
      refine (maintains_of_moves hwork (fun _ _ hw => hw) ensureBuilding_moves).bind fun _ =>
        Maintains.bind .state fun _ => Maintains.bind (.check _ fun _ _ hs => hs) fun row =>
          Maintains.bind (.update fun s hs => hrows _ _ hs) fun _ => .emit _

/-- What every operation of the engine keeps, and what does not depend on the rows,
    a caller cannot change. -/
theorem perform_maintains {I : Parallel.Desk → Prop}
    (hwork : ∀ {γ : Type} {act : Exec Parallel.Desk γ},
      Composed (Parallel.Moves fun _ => True) act → act.Maintains I fun _ => I)
    (hrows : ∀ (w : Parallel.Desk) (x : Tableau Binary32), I w → I { w with tableau := x })
    (o : Operation Binary32) :
    (perform o : Exec (Solver (Attached Parallel) Binary32) _).Maintains (fun s => I s.workspace)
      fun _ s => I s.workspace := by
  by_cases hbuild : ∃ c, o = .build c
  · rcases hbuild with ⟨c, rfl⟩
    exact (call_maintains hwork hrows c).bind fun _ => .pure _
  by_cases hsearch : ∃ fuel, o = .solve fuel
  · rcases hsearch with ⟨fuel, rfl⟩
    exact (solve_maintains hwork (fun _ _ hw => hw) fuel).bind fun _ => .pure _
  · exact maintains_of_moves hwork (fun _ _ hw => hw)
      (asked_moves (fun c hc => hbuild ⟨c, hc⟩) fun fuel hf => hsearch ⟨fuel, hf⟩)

/-- A solver on a truthful device, which knows what that reported. -/
structure Informed (limits : Limits) (s : Solver (Attached Parallel) Binary32) : Prop where
  device : s.device.Truthful limits
  info : s.workspace.engine.handle.info = (Device.ofLimits limits).info

/-- An operation leaves the settings alone, whether it succeeds or is refused. -/
theorem Informed.answered {o : Operation Binary32} {a : Except Error (Answer Binary32)}
    (ht : Informed limits t.state) (h : answer o t = .ok a u) : Informed limits u.state := by
  have hkept := perform_maintains (I := fun w => w.engine.device.Truthful limits ∧
    w.engine.handle.info = (Device.ofLimits limits).info) (fun hact => ?_)
    (fun _ _ hw => hw) o t.state ⟨ht.device, ht.info⟩
  · have hfinal := hkept.final
    rw [final_of_answer h] at hfinal
    exact ⟨hfinal.1, hfinal.2⟩
  · refine Parallel.maintains_of_moves (fun w _ act hask d hd => ?_) (fun _ _ _ _ hw => hw)
      (fun _ _ _ hw => hw) (fun _ _ hw => hw) hact
    exact (Device.asks_faithful hask limits d hd.1).mono (fun _ _ hd' => ⟨hd', hd.2⟩)
      fun _ _ hd' => ⟨hd', hd.2⟩

end Solver

end BoundedSimplex
