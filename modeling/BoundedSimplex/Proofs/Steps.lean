import BoundedSimplex.Proofs.Parallel
import BoundedSimplex.Proofs.Recorded
import BoundedSimplex.Proofs.Sessions

/-!
# The Steps of an Engine on a Device

What an engine asks of its device, and what it changes in the process.

Whatever an engine on a device does is made of four kinds of requests: it binds
an argument of a kernel of its own, launches such a kernel, or moves words to or
from a buffer of its own. The arguments that it binds are numbers and its own
buffers. Where sums do not end it also looks how far away a refusal is. What it
changes in the process are the tables of the basis and what it knows itself, but
never the numbers of its kernels and buffers.

Not every operation makes all of these. Questions only read, and a change of the
bounds writes to three buffers. So it is told along with an operation what it may
do, `Right`, and what it is shown to do can be read off from that.

A fact about these requests is then a fact about every operation of a solver on
a device. The proofs here only follow the operations; there is one theorem for
each of them.

## Main definitions

* `Right`: What an operation may do besides reading.
* `Parallel.Asks`: The requests of an engine.
* `Parallel.Moves`: The steps of an engine in its workspace.
* `Solver.Moves`: The steps of a solver on a device.

## Theorems

* `Parallel.scan_composed`, `Parallel.exchange_composed`,
  `Parallel.updateRow_composed`: Operations on a device.
* `Parallel.prepare_composed`, `Parallel.pivot_composed`: Operations of the engine.
* `Solver.exchange_moves`, `Solver.settle_moves`: The parts of an iteration.
* `Solver.solve_maintains`: Whole searches.
* `Solver.asked_moves`, `Solver.edit_moves`: What a caller does besides.
-/

namespace BoundedSimplex

open Exec

/-- What an operation may do besides reading: write to a buffer, have kernels run, and look
    how far away a refusal is. Operations of one engine differ in these rights, and what an
    operation has no right to it leaves alone. -/
inductive Right where
  | write (s : Slot)
  | run
  | look

namespace Parallel

/-- A number, or a buffer of the engine. -/
def Owns (p : Parallel) (a : Arg) : Prop := ∀ id, a.buffer? = some id → ∃ s, id = (p.slot s).id

/-- What an engine asks of its device: requests about its own kernels and buffers, as far as
    the operation has the rights `R`. Each request names its kernel or buffer through the
    engine, so none of them can be about those of another user. Only an engine whose sums
    never end looks how far away a refusal is. -/
inductive Asks (p : Parallel) (R : Right → Prop) : ∀ {α : Type}, Exec Device α → Prop where
  | setArg (e : Entry) (i : Nat) (a : Arg) : R .run → p.Owns a →
      Asks p R (Device.setArg (p.kernel e) i a)
  | launch (e : Entry) (size : LaunchSize) : R .run →
      Asks p R (Device.launch (p.kernel e) size)
  | write (s : Slot) (offset : Nat) (data : Words) : R (.write s) →
      Asks p R (Device.write (p.slot s).id offset data)
  | read (s : Slot) (offset count : Nat) : Asks p R (Device.read (p.slot s).id offset count)
  | look : R .look → sumsEnd p.geometry.workgroup p.numCols = false →
      Asks p R (Exec.view (·.untilRefusal))

theorem owns_arg (p : Parallel) (s : Slot) : p.Owns (p.slot s).arg := by
  rintro id ⟨⟩
  exact ⟨s, rfl⟩

theorem owns_count (p : Parallel) (n : Nat) : p.Owns (count n) := by
  rintro id ⟨⟩

theorem owns_number (p : Parallel) (x : Binary32) : p.Owns (.number x) := by
  rintro id ⟨⟩

section Transfers

variable {p : Parallel} {R : Right → Prop}

theorem read_composed (s : Slot) (offset count : Nat) :
    Composed (p.Asks R) ((p.slot s).read offset count) :=
  .bind (.check _) fun _ => .step (.read s _ _)

theorem write_composed {s : Slot} (hs : R (.write s)) (offset : Nat) (data : Words) :
    Composed (p.Asks R) ((p.slot s).write offset data) :=
  .bind (.check _) fun _ => .step (.write s _ _ hs)

theorem get_composed (s : Slot) (i : Nat) : Composed (p.Asks R) ((p.slot s).get i) :=
  .bind (read_composed s i 1) fun _ => .pure _

theorem set_composed {s : Slot} (hs : R (.write s)) (i : Nat) (w : UInt32) :
    Composed (p.Asks R) ((p.slot s).set i w) :=
  write_composed hs i #[w]

theorem ensurePrepared_composed : Composed (p.Asks R) p.ensurePrepared := by
  unfold ensurePrepared
  split
  · exact .pure ()
  · exact .fail _

/-! ### Questions and changes of bounds -/

theorem writeSide_composed (var : Nat) (bit : UInt32) {s : Slot} (x : Option Binary32)
    (hs : R (.write s)) (hbounded : R (.write .bounded)) :
    Composed (p.Asks R) (p.bounds.writeSide var bit (p.slot s) x) :=
  .bind (.check _) fun _ => .bind (get_composed .bounded var) fun _ =>
    .bind (set_composed hs var _) fun _ => set_composed hbounded var _

theorem writeBoth_composed (var : Nat) (i : Interval Binary32) (hlower : R (.write .lower))
    (hupper : R (.write .upper)) (hbounded : R (.write .bounded)) :
    Composed (p.Asks R) (p.bounds.writeBoth var i) :=
  .bind (.check _) fun _ => .bind (set_composed hlower var _) fun _ =>
    .bind (set_composed hupper var _) fun _ => set_composed hbounded var _

theorem readValue_composed (var : Nat) : Composed (p.Asks R) (p.bounds.readValue var) :=
  .bind (.check _) fun _ => .bind (get_composed .values var) fun _ => .pure _

theorem readValues_composed (count : Nat) : Composed (p.Asks R) (p.bounds.readValues count) := by
  unfold Bounds.Resident.readValues
  split
  · exact .fail _
  · exact .bind (read_composed .values 0 count) fun _ => .pure _

theorem readRole_composed (var : Nat) : Composed (p.Asks R) (p.bounds.readRole var) :=
  .bind (.check _) fun _ => .bind (get_composed .flags var) fun _ => .pure _

end Transfers

section Requests

variable {p : Parallel} {R : Right → Prop} (hall : ∀ x, x ≠ .look → R x)
include hall

theorem bind_composed (e : Entry) {args : List (Nat × Arg)} (h : ∀ q ∈ args, p.Owns q.2) :
    Composed (p.Asks R) (p.bind e args) := by
  unfold bind Device.setArgs
  induction args with
  | nil => exact .pure ()
  | cons q rest ih =>
      refine .bind (.step (.setArg e q.1 q.2 (hall .run nofun) (h q List.mem_cons_self))) ?_
      intro _
      exact ih fun r hr => h r (List.mem_cons_of_mem _ hr)

theorem run_composed (e : Entry) (size : LaunchSize) : Composed (p.Asks R) (p.run e size) :=
  .bind (.emit _) fun _ => .step (.launch e size (hall .run nofun))

theorem uploadBasis_composed (b : Basis) : Composed (p.Asks R) (p.uploadBasis b) :=
  .bind (write_composed (hall (.write .colVar) nofun) 0 _) fun _ =>
    .bind (write_composed (hall (.write .rowVar) nofun) 0 _) fun _ =>
    write_composed (hall (.write .place) nofun) 0 _

omit hall in
/-- The arguments that stay the same are numbers and buffers of the engine. -/
theorem owns_invariants (e : Entry) : ∀ q ∈ p.invariants e, p.Owns q.2 := by
  have hlower := owns_arg p .lower
  have hupper := owns_arg p .upper
  have hbounded := owns_arg p .bounded
  have hvalues := owns_arg p .values
  have hflags := owns_arg p .flags
  have htableau := owns_arg p .tableau
  have hcolVar := owns_arg p .colVar
  have hplace := owns_arg p .place
  have houtput := owns_arg p .output
  have hsums := owns_arg p (.sums false)
  have hcount := owns_count p
  have hnumber := owns_number p
  simp only [slot] at hlower hupper hbounded hvalues hflags htableau hcolVar hplace houtput hsums
  -- Each argument of the list is a count, a number, or one of the buffers above.
  cases e <;> simp only [invariants, List.forall_mem_cons, List.not_mem_nil, false_implies,
    implies_true, and_self, *]

theorem bindInvariants_composed : Composed (p.Asks R) p.bindInvariants :=
  .bind (bind_composed hall .checkBounds (owns_invariants .checkBounds)) fun _ =>
  .bind (bind_composed hall .findSuitable (owns_invariants .findSuitable)) fun _ =>
  .bind (bind_composed hall .findSuitableComplete (owns_invariants .findSuitableComplete)) fun _ =>
  .bind (bind_composed hall .pivotUpdateInner (owns_invariants .pivotUpdateInner)) fun _ =>
  .bind (bind_composed hall .pivotUpdateRow (owns_invariants .pivotUpdateRow)) fun _ =>
  .bind (bind_composed hall .pivotUpdateColumn (owns_invariants .pivotUpdateColumn)) fun _ =>
  .bind (bind_composed hall .updateAssignment (owns_invariants .updateAssignment)) fun _ =>
  bind_composed hall .updateAssignmentComplete (owns_invariants .updateAssignmentComplete)

/-! ### Scans -/

theorem scanChunks_composed (e : Entry) (offsetArg : Nat) (offsets : List Nat) :
    Composed (p.Asks R) (p.scanChunks e offsetArg offsets) := by
  induction offsets with
  | nil => exact .pure _
  | cons offset rest ih =>
      refine .bind (.step (.setArg e _ _ (hall .run nofun) (owns_count p _))) fun _ =>
        .bind (run_composed hall e _) fun _ => .bind (get_composed .output 0) fun hit => ?_
      split
      · exact .pure _
      · exact ih

theorem scan_composed (e : Entry) (offsetArg : Nat) :
    Composed (p.Asks R) (p.scan e offsetArg) :=
  .bind (set_composed (hall (.write .output) nofun) 0 _) fun _ =>
    scanChunks_composed hall e offsetArg _

theorem checkBounds_composed : Composed (p.Asks R) p.checkBounds :=
  .bind ensurePrepared_composed fun _ => scan_composed hall .checkBounds 1

theorem findSuitable_composed (broken : Nat) : Composed (p.Asks R) (p.findSuitable broken) := by
  refine .bind ensurePrepared_composed fun _ =>
    .bind (.step (.setArg .findSuitable 2 _ (hall .run nofun) (owns_count p _))) fun _ =>
      .bind (scan_composed hall .findSuitable 3) fun r => ?_
  cases r with
  | none => exact .pure _
  | some suitable =>
      refine .bind (bind_composed hall .findSuitableComplete ?_) fun _ =>
        .bind (run_composed hall .findSuitableComplete _) fun _ => .pure _
      simp only [List.forall_mem_cons, List.not_mem_nil, false_implies, implies_true, and_true]
      exact ⟨owns_count p _, owns_count p _⟩

/-! ### Exchange -/

theorem exchange_composed (row col : Nat) : Composed (p.Asks R) (p.exchange row col) := by
  refine .bind (get_composed .tableau _) fun w => ?_
  dsimp only
  split
  · exact .fail _
  -- The three kernels share their first arguments, and these are numbers.
  · have hshared : ∀ q ∈ [(0, Arg.number ⟨w⟩), (1, count row), (2, count col)], p.Owns q.2 := by
      simp only [List.forall_mem_cons, List.not_mem_nil, false_implies, implies_true, and_true]
      exact ⟨owns_number p _, owns_count p _, owns_count p _⟩
    exact .bind (bind_composed hall .pivotUpdateInner hshared) fun _ =>
      .bind (bind_composed hall .pivotUpdateRow hshared) fun _ =>
      .bind (bind_composed hall .pivotUpdateColumn hshared) fun _ =>
      .bind (run_composed hall .pivotUpdateInner _) fun _ =>
      .bind (run_composed hall .pivotUpdateRow _) fun _ =>
      .bind (run_composed hall .pivotUpdateColumn _) fun _ =>
      .bind (set_composed (hall (.write .tableau) nofun) _ _) fun _ => .pure _

theorem writeRole_composed (var : Nat) (r : Role) :
    Composed (p.Asks R) (p.bounds.writeRole var r) :=
  .bind (.check _) fun _ => set_composed (hall (.write .flags) nofun) var _

theorem recordExchange_composed (b : Basis) (leaving entering : Nat) :
    Composed (p.Asks R) (p.recordExchange b leaving entering) :=
  .bind (uploadBasis_composed hall b) fun _ => .bind (writeRole_composed hall leaving _) fun _ =>
    writeRole_composed hall entering _

/-! ### Values -/

theorem firstSums_composed (row : Nat) : Composed (p.Asks R) (p.firstSums row) :=
  .bind (.step (.setArg .updateAssignment 1 _ (hall .run nofun) (owns_count p _))) fun _ =>
    .bind (.word _) fun _ => run_composed hall .updateAssignment _

theorem foldOnce_composed (n : Nat) (second second' : Bool) :
    Composed (p.Asks R) (p.foldOnce n (p.slot (.sums second)) (p.slot (.sums second'))) := by
  refine .bind (bind_composed hall .reducePartialSums ?_) fun _ => .bind (.word _) fun _ =>
    run_composed hall .reducePartialSums _
  simp only [List.forall_mem_cons, List.not_mem_nil, false_implies, implies_true, and_true]
  exact ⟨owns_count p n, owns_arg p _, owns_arg p _⟩

/-- The partial sums end up in one of the two buffers. -/
theorem foldPartials_composed {f : Buffer → Exec Device Unit}
    (hf : ∀ second, Composed (p.Asks R) (f (p.slot (.sums second)))) (plan : List Nat) :
    ∀ second, Composed (p.Asks R)
      (p.foldPartials plan (p.slot (.sums second)) (p.slot (.sums !second)) >>= f) := by
  induction plan with
  | nil => exact hf
  | cons n rest ih =>
      intro second
      have hrest := ih (!second)
      rw [Bool.not_not] at hrest
      rw [foldPartials, bind_assoc]
      exact .bind (foldOnce_composed hall n second !second) fun _ => hrest

theorem foldInVain_composed (n times : Nat) :
    ∀ second, Composed (p.Asks R)
      (p.foldInVain n times (p.slot (.sums second)) (p.slot (.sums !second))) := by
  induction times with
  | zero => exact fun _ => .stop _
  | succ times ih =>
      intro second
      have hrest := ih (!second)
      rw [Bool.not_not] at hrest
      exact .bind (foldOnce_composed hall n second !second) fun _ => hrest

theorem updateRow_composed (hlook : R .look) (b : Basis) (row : Nat) :
    Composed (p.Asks R) (p.updateRow b row) := by
  refine .bind (firstSums_composed hall row) fun _ => ?_
  split
  -- No number of reductions ends this sum, so they are repeated until a refusal.
  · rename_i hplan
    have hvain : sumsEnd p.geometry.workgroup p.numCols = false := by rw [sumsEnd, hplan]; rfl
    exact .bind (.step (.look hlook hvain)) fun times => foldInVain_composed hall _ times false
  · refine foldPartials_composed hall (fun second => .bind (.entry _) fun var =>
      .bind (bind_composed hall .updateAssignmentComplete ?_) fun _ =>
        run_composed hall .updateAssignmentComplete _) _ false
    simp only [List.forall_mem_cons, List.not_mem_nil, false_implies, implies_true, and_true]
    exact ⟨owns_count p _, owns_count p _, owns_arg p _⟩

theorem updateAssignment_composed (hlook : R .look) (b : Basis) :
    Composed (p.Asks R) (p.updateAssignment b) :=
  .bind ensurePrepared_composed fun _ => .forM (updateRow_composed hall hlook b) _

end Requests

/-! ### The engine in its workspace -/

/-- The workspace with another device. -/
def Desk.withDevice (w : Desk) (d : Device) : Desk :=
  { w with engine := { w.engine with device := d } }

/-- What an engine does in its workspace: requests to its device, and changes in the
    process. The table of the basis, the number of rows and whether it was made ready are
    all that it changes there. -/
inductive Moves (R : Right → Prop) : ∀ {α : Type}, Exec Desk α → Prop where
  | device {α : Type} {act : Parallel → Exec Device α} :
      (∀ p : Parallel, Composed (p.Asks R) (act p)) → Moves R (onDevice act)
  | change {f : Parallel → Parallel} : R .run →
      (∀ p, ∃ numRows prepared, f p = { p with numRows, prepared }) → Moves R (change f)
  | basis (b : Basis) : R .run →
      Moves R (Exec.update fun w : Desk => { w with basis := b })
  | view {α : Type} {f : Desk → α} : (∀ w d, f (w.withDevice d) = f w) → Moves R (Exec.view f)

/-- What every request keeps an operation of the engine keeps, if it does not
    depend on the basis and on what the engine knows of the search. -/
theorem maintains_of_moves {R : Right → Prop} {I : Desk → Prop} {Q : Stop → Desk → Prop}
    (hask : ∀ (w : Desk) {γ : Type} {act : Exec Device γ}, w.engine.handle.Asks R act →
      act.Maintains (fun d => I (w.withDevice d)) fun e d => Q e (w.withDevice d))
    (hchange : R .run → ∀ (w : Desk) (numRows : Nat) (prepared : Bool), I w →
      I { w with engine := { w.engine with handle := { w.engine.handle with numRows, prepared } } })
    (hbasis : R .run → ∀ (w : Desk) (b : Basis), I w → I { w with basis := b })
    (hstop : ∀ e w, I w → Q e w) {α : Type} {act : Exec Desk α} (h : Composed (Moves R) act) :
    act.Maintains I Q := by
  refine Composed.maintains (fun hstep => ?_) hstop h
  -- Four kinds of move: a request, a note of the engine to itself, a new basis, and a look.
  cases hstep with
  | @device _ act hact =>
      intro w hw
      unfold onDevice Workspace.onEngine Attached.onDevice
      refine Exec.Ends.focus (Exec.Yields.view.ends (Exec.Ends.focus ?_))
      have hdevice : (act w.engine.handle).Maintains (fun d => I (w.withDevice d))
          fun e d => Q e (w.withDevice d) :=
        Composed.maintains (hask w) (fun e d => hstop e _) (hact _)
      exact hdevice _ hw
  | change hrun hf =>
      refine .update fun w hw => ?_
      rcases hf w.engine.handle with ⟨numRows, prepared, heq⟩
      rw [heq]
      exact hchange hrun w numRows prepared hw
  | basis b hrun => exact .update fun w hw => hbasis hrun w b hw
  | view _ => exact .view _

section Engine

variable {R : Right → Prop}

/-- What follows does not depend on the device. -/
theorem state_composed {α : Type} {g : Desk → Exec Desk α} (hg : ∀ w d, g (w.withDevice d) = g w)
    (h : ∀ w, Composed (Moves R) (g w)) : Composed (Moves R) (Exec.state >>= g) := by
  have heq : Exec.state >>= g = Exec.view (·.withDevice (.ofLimits {})) >>= g := by
    funext t
    exact congrFun (hg t.state (.ofLimits {})).symm t
  rw [heq]
  exact .bind (.step (.view fun _ _ => rfl)) h

theorem onDevice_composed {α : Type} {act : Parallel → Exec Device α}
    (h : ∀ p : Parallel, Composed (p.Asks R) (act p)) : Composed (Moves R) (onDevice act) :=
  .step (.device h)

/-- An operation of the bounds is one of the device. -/
theorem onEngine_onDevice_eq {α : Type} (act : Bounds.Resident → Exec Device α) :
    (Workspace.onEngine (Exec.focus
        (fun a => (⟨a.handle.bounds, a.device⟩ : Attached Bounds.Resident))
        (fun r a => { a with device := r.device }) (Attached.onDevice act)) : Exec Desk α)
      = onDevice fun p => act p.bounds := by
  funext t
  simp only [onDevice, Workspace.onEngine, Attached.onDevice, Exec.focus, Exec.view, Bind.bind,
    EStateM.bind]
  cases act t.state.engine.handle.bounds ⟨t.state.engine.device, t.journal⟩ <;> rfl

theorem entry_composed (row col : Nat) : Composed (Moves R) (entry row col) := by
  unfold entry
  refine state_composed (fun _ _ => rfl) fun w => ?_
  split
  · exact .bind (.check _) fun _ => .bind (.check _) fun _ =>
      .bind (onDevice_composed fun _ => get_composed .tableau _) fun _ => .pure _
  · exact .check _

theorem edit_composed (v : Nat) (e : BoundEdit Binary32) (hlower : R (.write .lower))
    (hupper : R (.write .upper)) (hbounded : R (.write .bounded)) :
    Composed (Moves R) (Workspace.onEngine (e.inStore v)) := by
  rw [inStore_eq, onEngine_onDevice_eq]
  refine onDevice_composed fun p => ?_
  cases e with
  | lower x => exact writeSide_composed (s := .lower) v hasLower x hlower hbounded
  | upper x => exact writeSide_composed (s := .upper) v hasUpper x hupper hbounded
  | both i => exact writeBoth_composed v i hlower hupper hbounded

variable (hall : ∀ x, x ≠ .look → R x)
include hall

theorem prepare_composed : Composed (Moves R) prepare :=
  state_composed (fun _ _ => rfl) fun _ =>
    .bind (.step (.change (hall .run nofun) fun p => ⟨_, p.prepared, rfl⟩)) fun _ =>
    .bind (onDevice_composed fun _ =>
      .bind (write_composed (hall (.write .tableau) nofun) 0 _) fun _ =>
      .bind (uploadBasis_composed hall _) fun _ => bindInvariants_composed hall) fun _ =>
    .bind (.step (.change (hall .run nofun) fun p => ⟨p.numRows, _, rfl⟩)) fun _ => .emit _

theorem pivot_composed (leaving entering : Nat) : Composed (Moves R) (pivot leaving entering) := by
  refine .bind (onDevice_composed fun _ => ensurePrepared_composed) fun _ =>
    state_composed (fun _ _ => rfl) fun w => .bind (.entry _) fun row => .bind (.entry _) fun col =>
    .bind (onDevice_composed fun p => exchange_composed hall row col) fun _ =>
    .bind (.entry _) fun x => .bind (.step (.basis _ (hall .run nofun))) fun _ =>
    .bind (onDevice_composed fun p => recordExchange_composed hall _ _ _) fun _ => .emit _

end Engine

end Parallel

/-! ### The solver -/

namespace Solver

/-- The solver with another device. -/
def withDevice (s : Solver (Attached Parallel) Binary32) (d : Device) :
    Solver (Attached Parallel) Binary32 :=
  { s with workspace := Parallel.Desk.withDevice s.workspace d }

/-- What a solver on a device does in one phase: operations of its engine, and
    changes outside of the workspace. -/
inductive Moves (R : Right → Prop) :
    ∀ {α : Type}, Exec (Solver (Attached Parallel) Binary32) α → Prop where
  | work {α : Type} {act : Exec Parallel.Desk α} : Composed (Parallel.Moves R) act →
      Moves R (onWorkspace act)
  | change {f : Solver (Attached Parallel) Binary32 → Solver (Attached Parallel) Binary32} :
      (∀ s, (f s).workspace = s.workspace) → (∀ s, (f s).phase = s.phase) →
      (∀ s d, f (s.withDevice d) = (f s).withDevice d) → Moves R (Exec.update f)
  | view {α : Type} {f : Solver (Attached Parallel) Binary32 → α} :
      (∀ s d, f (s.withDevice d) = f s) → Moves R (Exec.view f)

variable {R : Right → Prop} {α : Type}

/-- What the operations of the engine keep the solver keeps. -/
theorem maintains_of_moves {I : Parallel.Desk → Prop} {Q : Stop → Parallel.Desk → Prop}
    (hwork : ∀ {γ : Type} {act : Exec Parallel.Desk γ}, Composed (Parallel.Moves R) act →
      act.Maintains I Q) (hstop : ∀ e w, I w → Q e w)
    {act : Exec (Solver (Attached Parallel) Binary32) α} (h : Composed (Moves R) act) :
    act.Maintains (fun s => I s.workspace) fun e s => Q e s.workspace := by
  refine Composed.maintains (fun hstep => ?_) (fun e s => hstop e _) h
  cases hstep with
  | work hact => exact .focus fun s hs => hwork hact _ hs
  | change hworkspace _ _ =>
      refine .update fun s hs => ?_
      rw [hworkspace]
      exact hs
  | view _ => exact .view _

theorem maintains_phase (phase : Phase) {act : Exec (Solver (Attached Parallel) Binary32) α}
    (h : Composed (Moves R) act) :
    act.Maintains (fun s => s.phase = phase) fun _ s => s.phase = phase := by
  refine Composed.maintains (fun hstep => ?_) (fun _ _ hs => hs) h
  cases hstep with
  | @work _ act _ => exact .focus fun s hs j => by cases act ⟨s.workspace, j⟩ <;> exact hs
  | change _ hphase _ => exact .update fun s hs => (hphase s).trans hs
  | view _ => exact .view _

/-- What follows does not depend on the device. -/
theorem state_moves {g : Solver (Attached Parallel) Binary32 → Exec _ α}
    (hg : ∀ s d, g (s.withDevice d) = g s) (h : ∀ s, Composed (Moves R) (g s)) :
    Composed (Moves R) (Exec.state >>= g) := by
  have heq : Exec.state >>= g = Exec.view (·.withDevice (.ofLimits {})) >>= g := by
    funext t
    exact congrFun (hg t.state (.ofLimits {})).symm t
  rw [heq]
  exact .bind (.step (.view fun _ _ => rfl)) h

theorem work_moves {act : Exec Parallel.Desk α} (h : Composed (Parallel.Moves R) act) :
    Composed (Moves R) (onWorkspace act) :=
  .step (.work h)

theorem ensureBuilding_moves : Composed (Moves R)
    (ensureBuilding : Exec (Solver (Attached Parallel) Binary32) Unit) := by
  refine state_moves (fun _ _ => rfl) fun s => ?_
  split
  · exact .fail _
  · exact .pure _

theorem notify_moves (n : Notice) : Composed (Moves R)
    (notify n : Exec (Solver (Attached Parallel) Binary32) Unit) := by
  refine .step (.change (fun s => ?_) (fun s => ?_) fun s d => ?_)
  · split <;> rfl
  · split <;> rfl
  · cases hobs : s.observed <;> simp only [withDevice, hobs, if_true, if_false, Bool.false_eq_true]

theorem checkLimit_moves (n : Nat) : Composed (Moves R)
    (checkLimit n : Exec (Solver (Attached Parallel) Binary32) Unit) := by
  refine state_moves (fun _ _ => rfl) fun s => ?_
  cases s.config.maxIterations with
  | none => exact .pure _
  | some limit =>
      dsimp only
      split
      · exact .fail _
      · exact .pure _

/-! ### What a caller does besides searching -/

/-- A change of bounds. It writes to three buffers at most, and launches nothing. -/
theorem edit_moves (v : Nat) (e : BoundEdit Binary32) (hlower : R (.write .lower))
    (hupper : R (.write .upper)) (hbounded : R (.write .bounded)) : Composed (Moves R)
      (call (.bounds v e) : Exec (Solver (Attached Parallel) Binary32) Unit) := by
  rw [call_bounds_eq]
  exact .bind ensureBuilding_moves fun _ =>
    work_moves (Parallel.edit_composed v e hlower hupper hbounded)

/-- A question to the bounds. -/
theorem onEngine_moves {act : Bounds.Resident → Exec Device α}
    (h : ∀ p : Parallel, Composed (p.Asks R) (act p.bounds)) : Composed (Moves R)
      (onEngine (Exec.focus (fun a => (⟨a.handle.bounds, a.device⟩ : Attached Bounds.Resident))
        (fun r a => { a with device := r.device }) (Attached.onDevice act)) :
        Exec (Solver (Attached Parallel) Binary32) α) := by
  unfold onEngine
  rw [Parallel.onEngine_onDevice_eq]
  exact work_moves (Parallel.onDevice_composed h)

theorem assignment_moves (v : Nat) : Composed (Moves R)
    (assignment v : Exec (Solver (Attached Parallel) Binary32) Binary32) :=
  onEngine_moves fun _ => Parallel.readValue_composed v

theorem entry_moves (row col : Nat) : Composed (Moves R)
    (entry row col : Exec (Solver (Attached Parallel) Binary32) Binary32) :=
  state_moves (fun _ _ => rfl) fun _ => .bind (.check _) fun _ => .bind (.check _) fun _ =>
    work_moves (Parallel.entry_composed row col)

theorem label_moves (v : Nat) : Composed (Moves R)
    (label v : Exec (Solver (Attached Parallel) Binary32) String) :=
  state_moves (fun _ _ => rfl) fun _ => .bind (assignment_moves v) fun _ => .pure _

theorem renderRow_moves (row : Nat) : Composed (Moves R)
    (renderRow row : Exec (Solver (Attached Parallel) Binary32) String) :=
  state_moves (fun _ _ => rfl) fun _ => .bind (.entry _) fun var => .bind (label_moves var) fun _ =>
    .bind (.mapM (fun col => .bind (entry_moves row col) fun _ => .pure _) _) fun _ => .pure _

theorem render_moves : Composed (Moves R)
    (render : Exec (Solver (Attached Parallel) Binary32) String) :=
  state_moves (fun _ _ => rfl) fun _ =>
    .bind (.mapM (fun _ => .bind (.entry _) fun var => label_moves var) _) fun _ =>
    .bind (.mapM renderRow_moves _) fun _ => .pure _

/-- Questions, and what only concerns the observer. They need no rights at all. -/
theorem asked_moves {o : Operation Binary32} (hbuild : ∀ c, o ≠ .build c)
    (hsolve : ∀ fuel, o ≠ .solve fuel) : Composed (Moves R)
      (perform o : Exec (Solver (Attached Parallel) Binary32) (Answer Binary32)) := by
  -- Neither building nor searching: these operations need no right.
  cases o with
  | build c => exact absurd rfl (hbuild c)
  | solve fuel => exact absurd rfl (hsolve fuel)
  | observe on =>
      exact .bind (.step (.change (fun _ => rfl) (fun _ => rfl) fun _ _ => rfl)) fun _ => .pure _
  | takeNotices =>
      refine .bind (state_moves (fun _ _ => rfl) fun _ => ?_) fun _ => .pure _
      exact .bind (.step (.change (fun _ => rfl) (fun _ => rfl) fun _ _ => rfl)) fun _ => .pure _
  | assignment v => exact .bind (assignment_moves v) fun _ => .pure _
  | solution =>
      refine .bind (state_moves (fun _ _ => rfl) fun s => ?_) fun _ => .pure _
      exact onEngine_moves fun _ => Parallel.readValues_composed s.numCols
  | role v => exact .bind (onEngine_moves fun _ => Parallel.readRole_composed v) fun _ => .pure _
  | entry row col => exact .bind (entry_moves row col) fun _ => .pure _
  | render => exact .bind render_moves fun _ => .pure _
  | account => exact .bind (.step (.view fun _ _ => rfl)) fun _ => .pure _

/-! ### The search -/

section Search

variable (hall : ∀ x, x ≠ .look → R x)
include hall

theorem exchange_moves (n : Nat) : Composed (Moves R)
    (exchange n : Exec (Solver (Attached Parallel) Binary32) _) :=
  exchange_composed n (checkLimit_moves n) notify_moves
    (work_moves (Parallel.onDevice_composed fun _ => Parallel.checkBounds_composed hall))
    (fun broken => work_moves
      (Parallel.onDevice_composed fun _ => Parallel.findSuitable_composed hall broken))
    fun leaving entering => work_moves (Parallel.pivot_composed hall leaving entering)

theorem updateAssignment_moves (hlook : R .look) : Composed (Moves R)
    (onWorkspace Engine.updateAssignment : Exec (Solver (Attached Parallel) Binary32) _) :=
  work_moves (Parallel.state_composed (fun _ _ => rfl) fun w =>
    Parallel.onDevice_composed fun _ => Parallel.updateAssignment_composed hall hlook w.basis)

theorem settle_moves (hlook : R .look) (step : PivotStep) : Composed (Moves R)
    (settle step : Exec (Solver (Attached Parallel) Binary32) _) :=
  settle_composed step (.step (.change (fun _ => rfl) (fun _ => rfl) fun _ _ => rfl))
    (.step (.view fun _ _ => rfl)) notify_moves (updateAssignment_moves hall hlook)

theorem opening_moves : Composed (Moves R)
    (opening : Exec (Solver (Attached Parallel) Binary32) _) :=
  state_moves (fun _ _ => rfl) fun _ => .bind (.emit _) fun _ =>
    work_moves (Parallel.prepare_composed hall)

theorem iterate_moves (hlook : R .look) (n : Nat) : Composed (Moves R)
    (iterate n : Exec (Solver (Attached Parallel) Binary32) _) := by
  rw [iterate_eq]
  refine .bind (exchange_moves hall n) fun x => ?_
  cases x with
  | inl sat => exact .pure _
  | inr step => exact .bind (settle_moves hall hlook step) fun _ => .pure _

theorem run_moves (hlook : R .look) (fuel : Nat) : ∀ n, Composed (Moves R)
    (run fuel n : Exec (Solver (Attached Parallel) Binary32) _) := by
  induction fuel with
  | zero => exact fun _ => .stop _
  | succ fuel ih =>
      refine fun n => .bind (iterate_moves hall hlook n) fun x => ?_
      cases x with
      | none => exact ih (n + 1)
      | some sat => exact .pure _

end Search

/-- What the operations of the engine keep a search keeps, however it ends. Invariants of a
    search are shown of the engine alone in this way. -/
theorem solve_maintains {I : Parallel.Desk → Prop} {Q : Stop → Parallel.Desk → Prop}
    (hwork : ∀ {γ : Type} {act : Exec Parallel.Desk γ},
      Composed (Parallel.Moves fun _ => True) act → act.Maintains I Q)
    (hstop : ∀ e w, I w → Q e w) (fuel : Nat) :
    (solve fuel : Exec (Solver (Attached Parallel) Binary32) _).Maintains
      (fun s => I s.workspace) fun e s => Q e s.workspace := by
  have hmoves : ∀ {γ : Type} {act : Exec (Solver (Attached Parallel) Binary32) γ},
      Composed (Moves fun _ => True) act → act.Maintains (fun s => I s.workspace)
        fun e s => Q e s.workspace := fun hact => maintains_of_moves hwork hstop hact
  have hfinish : ∀ sat, (finish sat : Exec (Solver (Attached Parallel) Binary32) _).Maintains
      (fun s => I s.workspace) fun e s => Q e s.workspace := by
    intro sat s hs
    refine Exec.Yields.state.ends (Exec.Yields.update.ends (Exec.Yields.emit.ends ?_))
    exact (hmoves (.bind (notify_moves (.verdict sat s.history.size)) fun _ => .pure sat)) _ hs
  have habort : ∀ e s, Q (.error e) s.workspace →
      (abort e : Exec (Solver (Attached Parallel) Binary32) _).Ends s
        (fun _ s => I s.workspace) fun e s => Q e s.workspace := fun e s hs =>
    Exec.Yields.update.ends (Exec.Yields.emit.ends (.fail hs))
  have hprepare := hmoves (work_moves (Parallel.prepare_composed fun _ _ => trivial))
  have hrun := hmoves (run_moves (fun _ _ => trivial) trivial fuel 0)
  -- Opening, run and finish in a row, with an abort for whichever of them fails.
  have hsearch := Maintains.onError (hprepare.bind fun _ => hrun.bind hfinish) habort
    fun _ _ hs => hs
  intro s hs
  refine Exec.Yields.state.ends ?_
  cases s.phase with
  | sat => exact .pure hs
  | unsat => exact .pure hs
  | aborted => exact .fail (hstop _ _ hs)
  | building => exact Exec.Yields.emit.ends (hsearch s hs)

end Solver

end BoundedSimplex
