import BoundedSimplex.Proofs.Creation
import BoundedSimplex.Proofs.Sequential

/-!
# What Engines Leave in the Logs

What an engine adds to the two logs of a run.

There are two of them. The journal is common to all. A search writes to it how it
goes, and these events it alone writes: an engine and its device have events of
their own. The other log is kept by the gateway, which notes every launch with its
size before it passes it on. The sizes are worked out from the widths of the engine
and the numbers of columns, rows and partial sums. So no dimension is ever empty,
except that a system without rows has nothing to launch the exchange on.

Both logs only grow. So what an operation adds can be said of each of its steps, and
it makes no difference whether the operation ends or stops.

## Main definitions

* `Event.ofSearch`: The events by which a search tells how it goes.
* `Exec.Notes`: What was added to the log of launches between two moments.
* `Exec.Adds`: What was added to both logs.
* `Exec.Logs`: An operation that adds no such event, and launches of some sizes only.
* `Engine.Logs`: The same for the operations of an engine.

## Theorems

* `Exec.Logs.bind`, `Exec.Logs.focus`: How operations are put together.
* `Device.launch_logs`: The only request that adds a launch.
* `Parallel.logs`: The engine on a device.
* `Sequential.logs`: The engine in the process, which launches nothing.
-/

namespace BoundedSimplex

/-- The events by which a search tells how it goes. -/
def Event.ofSearch : Event → Bool
  | .brokenVariable .. | .noSuitable .. | .pivot .. | .solveFinished .. | .solveAborted .. => true
  | _ => false

/-- Those events of a journal. -/
def Journal.ofSearch (journal : Journal) : List Event := journal.toList.filter (·.ofSearch)

theorem Journal.ofSearch_push (j : Journal) (e : Event) :
    ofSearch (j.push e) = ofSearch j ++ if e.ofSearch then [e] else [] := by
  rw [ofSearch, Array.toList_push, List.filter_append, List.filter_singleton, Bool.cond_eq_ite]
  rfl

namespace Exec

variable {σ τ α β γ : Type} {L : σ → List LaunchRecord} {P : LaunchSize → Prop}
  {es es' : List Event} {t u v : Traced σ}

/-- Every launch that was noted between the two moments has one of the sizes. The log only
    grows, and the latest launch comes first. -/
def Notes (L : σ → List LaunchRecord) (P : LaunchSize → Prop) (t u : Traced σ) : Prop :=
  ∃ new, L u.state = new ++ L t.state ∧ ∀ r ∈ new, P r.size

/-- Between the two moments a search wrote these events, and launches of these sizes only
    were noted. Events of the engine and the device stand between those of the search, and
    are left out here. -/
structure Adds (L : σ → List LaunchRecord) (P : LaunchSize → Prop) (es : List Event)
    (t u : Traced σ) : Prop where
  events : u.journal.ofSearch = t.journal.ofSearch ++ es
  launches : Notes L P t u

/-- The operation writes no event of a search, and has launches of these sizes noted
    only. -/
def Logs (act : Exec σ α) (L : σ → List LaunchRecord) (P : LaunchSize → Prop)
    (t : Traced σ) : Prop :=
  Adds L P [] t (final (act t))

/-- Where no launches are noted. -/
def unlogged (_ : σ) : List LaunchRecord := []

namespace Notes

theorem of_same (h : L u.state = L t.state) : Notes L P t u :=
  ⟨[], h, fun _ hr => absurd hr List.not_mem_nil⟩

theorem trans (h : Notes L P t u) (h' : Notes L P u v) : Notes L P t v := by
  rcases h with ⟨new, hnew, hsizes⟩
  rcases h' with ⟨new', hnew', hsizes'⟩
  refine ⟨new' ++ new, ?_, fun r hr => (List.mem_append.mp hr).elim (hsizes' r) (hsizes r)⟩
  rw [hnew', hnew, List.append_assoc]

end Notes

namespace Adds

theorem of_same (hlog : L u.state = L t.state)
    (hevents : u.journal.ofSearch = t.journal.ofSearch ++ es) : Adds L P es t u :=
  ⟨hevents, .of_same hlog⟩

theorem refl (t : Traced σ) : Adds L P [] t t := of_same rfl (List.append_nil _).symm

theorem trans (h : Adds L P es t u) (h' : Adds L P es' u v) : Adds L P (es ++ es') t v :=
  ⟨by rw [h'.events, h.events, List.append_assoc], h.launches.trans h'.launches⟩

end Adds

namespace Logs

variable {act : Exec σ α}

theorem pure (a : α) : (Pure.pure a : Exec σ α).Logs L P t := .refl t

theorem stop (e : Stop) : (throw e : Exec σ α).Logs L P t := .refl t

theorem state : (Exec.state : Exec σ σ).Logs L P t := .refl t

theorem view (f : σ → α) : (Exec.view f).Logs L P t := .refl t

theorem ofExcept (x : Except Stop α) : (Exec.ofExcept x : Exec σ α).Logs L P t := by
  cases x <;> exact .refl t

theorem check (x : Except Error α) : (Exec.check x : Exec σ α).Logs L P t := ofExcept _

theorem entry (x : Option α) : (Exec.entry x : Exec σ α).Logs L P t := ofExcept _

theorem word (n : Nat) : (Exec.word n : Exec σ Nat).Logs L P t := ofExcept _

theorem update {f : σ → σ} (h : L (f t.state) = L t.state) : (Exec.update f).Logs L P t :=
  .of_same h (List.append_nil _).symm

/-- An event that is not one of a search. -/
theorem emit {e : Event} (h : e.ofSearch = false) : (Exec.emit e : Exec σ Unit).Logs L P t := by
  refine .of_same rfl ((Journal.ofSearch_push _ e).trans ?_)
  rw [h]
  rfl

/-- One operation after another. -/
theorem bind {f : α → Exec σ β} (h : act.Logs L P t)
    (hf : ∀ a u, act t = .ok a u → (f a).Logs L P u) : (act >>= f).Logs L P t := by
  unfold Logs at h ⊢
  cases hrun : act t with
  | ok a u =>
      rw [hrun] at h
      rw [bind_ok hrun]
      exact Adds.trans h (hf a u hrun)
  | error e u =>
      rw [hrun] at h
      rw [bind_error hrun]
      exact h

/-- A look at a table changes nothing, so what follows begins at the same moment. -/
theorem entry_bind {x : Option α} {f : α → Exec σ β} (hf : ∀ a, (f a).Logs L P t) :
    (Exec.entry x >>= f).Logs L P t := by
  refine .bind (.entry x) fun a u hrun => ?_
  cases x with
  | none => cases hrun
  | some b =>
      cases hrun
      exact hf a

theorem forM {f : γ → Exec σ Unit} {l : List γ} (h : ∀ c ∈ l, ∀ t, (f c).Logs L P t) :
    ∀ t, (l.forM f).Logs L P t := by
  induction l with
  | nil => exact fun _ => pure ()
  | cons c rest ih =>
      intro t
      exact (h c List.mem_cons_self t).bind fun _ u _ =>
        ih (fun c' hc' => h c' (List.mem_cons_of_mem _ hc')) u

/-- An operation on a part adds to the logs of the whole what it adds to those of the
    part. -/
theorem focus {get : τ → σ} {set : σ → τ → τ} {act : Exec σ α} {L' : τ → List LaunchRecord}
    {t : Traced τ} (h : act.Logs L P ⟨get t.state, t.journal⟩)
    (hlog : ∀ s new, L s = new ++ L (get t.state) → L' (set s t.state) = new ++ L' t.state) :
    (Exec.focus get set act).Logs L' P t := by
  rcases h with ⟨hevents, new, hnew, hsizes⟩
  -- A part that stops has written to its logs as well, so both ends are looked at.
  unfold Logs
  cases hrun : act ⟨get t.state, t.journal⟩ with
  | ok a u =>
      rw [hrun] at hevents hnew
      rw [focus_ok hrun]
      exact ⟨hevents, new, hlog _ _ hnew, hsizes⟩
  | error e u =>
      rw [hrun] at hevents hnew
      rw [focus_error hrun]
      exact ⟨hevents, new, hlog _ _ hnew, hsizes⟩

end Logs

end Exec

open Exec

/-! ### Requests -/

namespace Device

variable {α : Type} {P : LaunchSize → Prop} {t : Traced Device}

theorem onHost_logs {act : Exec HostDevice α} (h : ∀ t, act.Logs unlogged P t) :
    (onHost act).Logs launches P t := by
  refine .focus (h _) fun _ new hnew => ?_
  rw [← List.append_nil new, ← show _ = new ++ [] from hnew]
  rfl

theorem ask_logs (r : Request) : (ask r).Logs launches P t := by
  refine .bind .state fun _ _ _ => .bind (.update rfl) fun _ _ _ => ?_
  split
  · exact .stop _
  · exact .pure _

theorem setArg_logs (kernel i : Nat) (a : Arg) : (setArg kernel i a).Logs launches P t :=
  (ask_logs _).bind fun _ _ _ => onHost_logs fun _ => .bind .state fun _ _ _ =>
    .bind (.check _) fun _ _ _ => .bind (.check _) fun _ _ _ => .update rfl

theorem write_logs (id offset : Nat) (data : Words) :
    (write id offset data).Logs launches P t :=
  (ask_logs _).bind fun _ _ _ => .bind (onHost_logs fun _ => .bind .state fun _ _ _ =>
    .bind (.check _) fun _ _ _ => .update rfl) fun _ _ _ => .update rfl

theorem read_logs (id offset count : Nat) : (read id offset count).Logs launches P t :=
  (ask_logs _).bind fun _ _ _ => .bind (onHost_logs fun _ => .bind .state fun _ _ _ => .check _)
    fun _ _ _ => .bind (.update rfl) fun _ _ _ => .pure _

/-- A launch is noted with its size, whether or not there is such a kernel. So what is said
    of sizes holds of launches that are refused as well. -/
theorem launch_logs (kernel : Nat) {size : LaunchSize} (h : P size) :
    (launch kernel size).Logs launches P t := by
  refine (ask_logs _).bind fun _ u _ => .bind ?_ fun _ _ _ => onHost_logs fun _ =>
    .bind .state fun _ _ _ => .bind (.check _) fun _ _ _ => .bind (.check _) fun _ _ _ =>
      .bind (.emit rfl) fun _ _ _ => .bind (.update rfl) fun _ _ _ => .ofExcept _
  refine ⟨(List.append_nil _).symm, [u.state.recordOf kernel size], rfl, fun r hr => ?_⟩
  rw [List.mem_singleton.mp hr, recordOf]
  split <;> exact h

end Device

namespace Buffer

open Device

variable {P : LaunchSize → Prop} {t : Traced Device}

theorem read_logs (b : Buffer) (offset count : Nat) : (b.read offset count).Logs launches P t :=
  .bind (.check _) fun _ _ _ => Device.read_logs _ _ _

theorem write_logs (b : Buffer) (offset : Nat) (data : Words) :
    (b.write offset data).Logs launches P t :=
  .bind (.check _) fun _ _ _ => Device.write_logs _ _ _

theorem get_logs (b : Buffer) (i : Nat) : (b.get i).Logs launches P t :=
  (b.read_logs i 1).bind fun _ _ _ => .pure _

end Buffer

namespace Parallel

open Device

/-! ### Operations on a device -/

section Requests

variable {p : Parallel} {P : LaunchSize → Prop} {t : Traced Device}

theorem bind_logs (e : Entry) (args : List (Nat × Arg)) : (p.bind e args).Logs launches P t :=
  .forM (fun q _ _ => setArg_logs _ q.1 q.2) t

theorem run_logs (e : Entry) {size : LaunchSize} (h : P size) :
    (p.run e size).Logs launches P t :=
  .bind (.emit rfl) fun _ _ _ => launch_logs _ h

theorem uploadBasis_logs (b : Basis) : (p.uploadBasis b).Logs launches P t :=
  (p.colVar.write_logs 0 _).bind fun _ _ _ => (p.rowVar.write_logs 0 _).bind fun _ _ _ =>
    p.place.write_logs 0 _

theorem bindInvariants_logs : p.bindInvariants.Logs launches P t :=
  (bind_logs _ _).bind fun _ _ _ => (bind_logs _ _).bind fun _ _ _ =>
  (bind_logs _ _).bind fun _ _ _ => (bind_logs _ _).bind fun _ _ _ =>
  (bind_logs _ _).bind fun _ _ _ => (bind_logs _ _).bind fun _ _ _ =>
  (bind_logs _ _).bind fun _ _ _ => bind_logs _ _

theorem ensurePrepared_logs : p.ensurePrepared.Logs launches P t := by
  unfold ensurePrepared
  split
  · exact .pure _
  · exact .stop _

theorem writeRole_logs (var : Nat) (r : Role) : (p.bounds.writeRole var r).Logs launches P t :=
  .bind (.check _) fun _ _ _ => p.bounds.flags.write_logs var _

theorem recordExchange_logs (b : Basis) (leaving entering : Nat) :
    (p.recordExchange b leaving entering).Logs launches P t :=
  (uploadBasis_logs b).bind fun _ _ _ => (writeRole_logs leaving _).bind fun _ _ _ =>
    writeRole_logs entering _

end Requests

section Launches

variable {p : Parallel} {limit : Nat} (hg : p.geometry.Sound limit)
include hg

/-- A launch in workgroups of the usual width. -/
theorem linear_fits {grid : Nat} (h : 0 < grid ∧ grid < UInt32.size) :
    (LaunchSize.linear grid p.geometry.workgroup).Fits limit :=
  LaunchSize.fits_linear h ⟨hg.pos, hg.workgroup_lt⟩ hg.le

/-- A launch for so many items in whole workgroups, after they were counted in a word. -/
theorem sums_logs {n : Nat} (h : 0 < n) (e : Entry) (t : Traced Device) :
    (Exec.word (ceilDiv n p.geometry.workgroup * p.geometry.workgroup) >>=
      fun items => p.run e (.linear items p.geometry.workgroup)).Logs launches
        (·.Fits limit) t := by
  refine .bind (.word _) fun items u hword => ?_
  rcases Exec.word_eq_ok hword with ⟨hlt, rfl, rfl⟩
  exact run_logs e (linear_fits hg ⟨Nat.mul_pos (ceilDiv_pos hg.pos h) hg.pos, hlt⟩)

theorem scanChunks_logs (e : Entry) (offsetArg : Nat) (offsets : List Nat) : ∀ t,
    (p.scanChunks e offsetArg offsets).Logs launches (·.Fits limit) t := by
  induction offsets with
  | nil => exact fun _ => .pure _
  | cons offset rest ih =>
      refine fun t => (setArg_logs _ _ _).bind fun _ _ _ =>
        (run_logs e (linear_fits hg ⟨hg.chunk_pos, hg.fits⟩)).bind fun _ _ _ =>
        (p.output.get_logs 0).bind fun hit u _ => ?_
      split
      · exact .pure _
      · exact ih u

theorem scan_logs (e : Entry) (offsetArg : Nat) (t : Traced Device) :
    (p.scan e offsetArg).Logs launches (·.Fits limit) t :=
  (p.output.write_logs 0 _).bind fun _ u _ => scanChunks_logs hg e offsetArg _ u

theorem checkBounds_logs (t : Traced Device) : p.checkBounds.Logs launches (·.Fits limit) t :=
  ensurePrepared_logs.bind fun _ u _ => scan_logs hg .checkBounds 1 u

theorem findSuitable_logs (broken : Nat) (t : Traced Device) :
    (p.findSuitable broken).Logs launches (·.Fits limit) t := by
  refine ensurePrepared_logs.bind fun _ _ _ => (setArg_logs _ _ _).bind fun _ u _ =>
    (scan_logs hg .findSuitable 3 u).bind fun r _ _ => ?_
  cases r with
  | none => exact .pure _
  | some suitable =>
      have hone : (LaunchSize.linear 1 1).Fits limit :=
        LaunchSize.fits_linear (by decide) (by decide) (Nat.le_trans hg.pos hg.le)
      exact (bind_logs _ _).bind fun _ _ _ => (run_logs _ hone).bind fun _ _ _ => .pure _

/-- The kernels of the exchange run over all rows, so there has to be one. -/
theorem exchange_logs (hrows : 0 < p.numRows ∧ p.numRows < UInt32.size)
    (hcols : 0 < p.numCols ∧ p.numCols < UInt32.size) (row col : Nat) (t : Traced Device) :
    (p.exchange row col).Logs launches (·.Fits limit) t := by
  refine (p.tableau.get_logs _).bind fun w _ _ => ?_
  dsimp only
  split
  · exact .stop _
  · have hplanar : (LaunchSize.planar p.numCols p.numRows p.geometry.tile).Fits limit :=
      LaunchSize.fits_planar hcols hrows ⟨hg.tile.1, hg.tile_lt⟩ (Nat.le_trans hg.tile.2 hg.le)
    exact (bind_logs _ _).bind fun _ _ _ => (bind_logs _ _).bind fun _ _ _ =>
      (bind_logs _ _).bind fun _ _ _ => (run_logs _ hplanar).bind fun _ _ _ =>
      (run_logs _ (linear_fits hg hcols)).bind fun _ _ _ =>
      (run_logs _ (linear_fits hg hrows)).bind fun _ _ _ =>
      (p.tableau.write_logs _ _).bind fun _ _ _ => .pure _

theorem foldOnce_logs {n : Nat} (hn : 0 < n) (source target : Buffer) (t : Traced Device) :
    (p.foldOnce n source target).Logs launches (·.Fits limit) t :=
  (bind_logs _ _).bind fun _ u _ => sums_logs hg hn .reducePartialSums u

theorem foldPartials_logs {plan : List Nat} (hplan : ∀ n ∈ plan, 0 < n) :
    ∀ (source target : Buffer) (t : Traced Device),
      (p.foldPartials plan source target).Logs launches (·.Fits limit) t := by
  induction plan with
  | nil => exact fun _ _ _ => .pure _
  | cons n rest ih =>
      intro source target t
      exact (foldOnce_logs hg (hplan n List.mem_cons_self) source target t).bind fun _ u _ =>
        ih (fun m hm => hplan m (List.mem_cons_of_mem _ hm)) target source u

theorem foldInVain_logs {n : Nat} (hn : 0 < n) (times : Nat) :
    ∀ (source target : Buffer) (t : Traced Device),
      (p.foldInVain n times source target).Logs launches (·.Fits limit) t := by
  induction times with
  | zero => exact fun _ _ _ => .stop _
  | succ times ih =>
      exact fun source target t => (foldOnce_logs hg hn source target t).bind fun _ u _ =>
        ih target source u

omit hg in
/-- Only what does not fit into a workgroup is summed once more. -/
theorem pos_of_mem_foldPlan {width : Nat} {steps : Nat} : ∀ {count : Nat} {plan : List Nat},
    foldPlan width steps count = some plan → ∀ n ∈ plan, 0 < n := by
  induction steps with
  | zero =>
      intro count plan h
      rw [foldPlan] at h
      split at h <;> cases h
      exact fun _ hn => absurd hn List.not_mem_nil
  | succ steps ih =>
      intro count plan h
      rw [foldPlan] at h
      split at h
      · cases h
        exact fun _ hn => absurd hn List.not_mem_nil
      -- The count that is summed again is above the width, so it is not zero.
      · rename_i hwide
        rcases Option.map_eq_some_iff.mp h with ⟨rest, hrest, rfl⟩
        intro n hn
        rcases List.mem_cons.mp hn with rfl | hn
        · omega
        · exact ih hrest n hn

theorem updateRow_logs (hcols : 0 < p.numCols) (b : Basis) (row : Nat) (t : Traced Device) :
    (p.updateRow b row).Logs launches (·.Fits limit) t := by
  have hgroups := ceilDiv_pos hg.pos hcols
  have hfirst : (p.firstSums row).Logs launches (·.Fits limit) t :=
    (setArg_logs _ _ _).bind fun _ u _ => sums_logs hg hcols .updateAssignment u
  refine hfirst.bind fun _ u _ => ?_
  split
  · exact .bind (.view _) fun times u' _ => foldInVain_logs hg hgroups times _ _ u'
  · rename_i plan hplan
    exact (foldPartials_logs hg (pos_of_mem_foldPlan hplan) _ _ u).bind fun _ _ _ =>
      .bind (.entry _) fun _ _ _ => (bind_logs _ _).bind fun _ _ _ =>
        run_logs _ (linear_fits hg ⟨hg.pos, hg.workgroup_lt⟩)

theorem updateAssignment_logs (hcols : 0 < p.numCols) (b : Basis) (t : Traced Device) :
    (p.updateAssignment b).Logs launches (·.Fits limit) t :=
  ensurePrepared_logs.bind fun _ u _ => .forM (fun row _ => updateRow_logs hg hcols b row) u

end Launches

/-! ### The engine in its workspace -/

/-- The launches that the gateway of an engine has noted. -/
def Desk.launches (w : Desk) : List LaunchRecord := w.engine.device.launches

section Workspace

variable {P : LaunchSize → Prop} {t : Traced Desk}

theorem onDevice_logs {α : Type} {act : Parallel → Exec Device α}
    (h : ∀ t', (act t.state.engine.handle).Logs Device.launches P t') :
    (onDevice act).Logs Desk.launches P t := by
  unfold onDevice Workspace.onEngine Attached.onDevice
  refine .focus (L := fun a => a.device.launches) (.bind (.view _) fun p u hview => ?_)
    fun _ _ hnew => hnew
  cases hview
  exact .focus (h _) fun _ _ hnew => hnew

theorem prepare_logs : (prepare : Exec Desk Unit).Logs Desk.launches P t :=
  .bind .state fun _ _ _ => .bind (.update rfl) fun _ _ _ =>
    .bind (onDevice_logs fun _ => (Buffer.write_logs _ 0 _).bind fun _ _ _ =>
      (uploadBasis_logs _).bind fun _ _ _ => bindInvariants_logs) fun _ _ _ =>
    .bind (.update rfl) fun _ _ _ => .emit rfl

/-- The engine has to be ready, and have a row. -/
theorem pivot_logs {limit : Nat} (hg : t.state.engine.handle.geometry.Sound limit)
    (hrows : 0 < t.state.engine.handle.numRows ∧ t.state.engine.handle.numRows < UInt32.size)
    (hcols : 0 < t.state.engine.handle.numCols ∧ t.state.engine.handle.numCols < UInt32.size)
    (hprepared : t.state.engine.handle.prepared = true) (leaving entering : Nat) :
    (pivot leaving entering : Exec Desk Unit).Logs Desk.launches (·.Fits limit) t := by
  refine .bind (onDevice_logs fun _ => ensurePrepared_logs) fun _ u hrun => ?_
  -- Preparing an engine that is prepared changes nothing, so the sizes are still those of the
  -- hypotheses.
  have hkept : u.state.engine.handle = t.state.engine.handle := by
    rcases (onDevice_gives (ensurePrepared_gives hprepared)).result hrun with ⟨_, -, hu⟩
    rw [hu]
  rw [← hkept] at hg hrows hcols
  refine .bind .state fun w v hstate => ?_
  cases hstate
  refine .entry_bind fun row => .entry_bind fun col => ?_
  exact .bind (onDevice_logs (exchange_logs hg hrows hcols row col)) fun _ _ _ =>
    .bind (.entry _) fun _ _ _ => .bind (.update rfl) fun _ _ _ =>
    .bind (onDevice_logs fun _ => recordExchange_logs _ _ _) fun _ _ _ => .emit rfl

end Workspace

end Parallel

/-! ### Both engines -/

/-- What the operations of an engine add to the logs while it follows a board: no event of
    the search, and launches of some sizes only. So the events of a search are those it
    writes itself. -/
structure Engine.Logs {β α : Type} [Scalar α] [Engine β α]
    (L : Workspace β α → List LaunchRecord) (P : LaunchSize → Prop)
    (Ready Shows : Workspace β α → Board α → Prop) : Prop where
  prepare : ∀ (t : Traced (Workspace β α)) (b : Board α), Ready t.state b →
    (Engine.prepare : Exec (Workspace β α) Unit).Logs L P t
  checkBounds : ∀ (t : Traced (Workspace β α)) (b : Board α), Shows t.state b →
    (Engine.checkBounds : Exec (Workspace β α) _).Logs L P t
  findSuitable : ∀ (t : Traced (Workspace β α)) (b : Board α) (leaving : Nat), Shows t.state b →
    (Engine.findSuitable leaving : Exec (Workspace β α) _).Logs L P t
  pivot : ∀ (t : Traced (Workspace β α)) (b : Board α) (leaving entering : Nat),
    Shows t.state b → 0 < b.numRows → b.numRows ≤ b.maxRows →
    (Engine.pivot leaving entering : Exec (Workspace β α) _).Logs L P t
  update : ∀ (t : Traced (Workspace β α)) (b : Board α), Shows t.state b →
    (Engine.updateAssignment : Exec (Workspace β α) _).Logs L P t

namespace Parallel

variable {p : Parallel} {b : Board Binary32} {width limit : Nat}

/-- There is a column, and the columns can be counted in a word. -/
theorem Fits.cols (h : p.Fits width b) : 0 < p.numCols ∧ p.numCols < UInt32.size := by
  rw [h.numCols]
  exact ⟨h.numCols_pos, h.numCols_lt⟩

/-- The launches of the engine on a device are not empty, and no workgroup is wider
    than it has to be. -/
theorem logs (hle : width ≤ limit) : Engine.Logs (β := Attached Parallel) Desk.launches
    (·.Fits limit) (Ready width) (Shows width) where
  prepare _ _ _ := prepare_logs
  checkBounds _ _ h := onDevice_logs (checkBounds_logs (h.stands.fits.sound hle))
  findSuitable _ _ leaving h :=
    onDevice_logs (findSuitable_logs (h.stands.fits.sound hle) leaving)
  pivot _ _ leaving entering h hrows hlimit :=
    pivot_logs (h.stands.fits.sound hle)
      (by rw [h.stands.numRows]; exact ⟨hrows, h.stands.fits.row_lt hlimit⟩)
      h.stands.fits.cols h.stands.prepared leaving entering
  update _ _ h := .bind .state fun w u hstate => by
    cases hstate
    exact onDevice_logs (updateAssignment_logs (h.stands.fits.sound hle) h.stands.fits.cols.1 _)

end Parallel

namespace Sequential

variable {α γ : Type} {P : LaunchSize → Prop} {t : Traced (Workspace (Sequential α) α)}

theorem onEngine_logs {act : Exec (Sequential α) γ} (h : ∀ t, act.Logs unlogged P t) :
    (Workspace.onEngine act).Logs unlogged P t :=
  .focus (h _) fun _ _ hnew => hnew

/-- A change of the entry of a variable. -/
theorem change_logs (v : Nat) (f : Variable α → Variable α) (t : Traced (Sequential α)) :
    (Exec.focus (·.bounds) (fun b s => { s with bounds := b }) (Bounds.Table.change v f) :
      Exec (Sequential α) Unit).Logs unlogged P t :=
  .focus (L := unlogged) (.bind .state fun _ _ _ => .bind (.check _) fun _ _ _ => .update rfl)
    fun _ _ hnew => hnew

variable [Scalar α]

theorem apply_logs (c : Correction α) (entering broken : Nat) (coeff : α)
    (t : Traced (Sequential α)) :
    (c.apply entering broken coeff : Exec (Sequential α) Unit).Logs unlogged P t := by
  unfold Correction.apply
  cases c.direction with
  | increase => exact (change_logs _ _ t).bind fun _ u _ => change_logs _ _ u
  | decrease => exact (change_logs _ _ t).bind fun _ u _ => change_logs _ _ u

theorem findSuitable_logs (broken : Nat) :
    (findSuitable broken : Exec (Workspace (Sequential α) α) _).Logs unlogged P t := by
  refine .bind .state fun _ _ _ => .bind (.check _) fun _ _ _ => .bind (.entry _) fun _ _ _ =>
    .bind (.ofExcept _) fun r _ _ => ?_
  cases r with
  | none => exact .pure _
  | some found => exact .bind (onEngine_logs (apply_logs _ _ _ _)) fun _ _ _ => .pure _

theorem pivot_logs (leaving entering : Nat) :
    (pivot leaving entering : Exec (Workspace (Sequential α) α) _).Logs unlogged P t :=
  .bind .state fun _ _ _ => .bind (.entry _) fun _ _ _ => .bind (.entry _) fun _ _ _ =>
    .bind (.entry _) fun _ _ _ => .bind (.update rfl) fun _ _ _ => .bind (.entry _) fun _ _ _ =>
    .bind (.update rfl) fun _ _ _ => .bind (onEngine_logs (change_logs _ _)) fun _ _ _ =>
    onEngine_logs (change_logs _ _)

theorem updateRow_logs (row : Nat) (t : Traced (Workspace (Sequential α) α)) :
    (updateRow row).Logs unlogged P t :=
  .bind .state fun _ _ _ => .bind (.entry _) fun _ _ _ => .bind (.entry _) fun _ _ _ =>
    onEngine_logs (change_logs _ _)

/-- The engine in the process adds nothing to either log. -/
theorem logs : Engine.Logs (β := Sequential α) unlogged P Shows Shows where
  prepare _ _ _ := .pure _
  checkBounds _ _ _ := .bind .state fun _ _ _ => .check _
  findSuitable _ _ leaving _ := findSuitable_logs leaving
  pivot _ _ leaving entering _ _ _ := pivot_logs leaving entering
  update _ _ _ := .bind .state fun _ u _ => .forM (fun row _ => updateRow_logs row) u

end Sequential

end BoundedSimplex
