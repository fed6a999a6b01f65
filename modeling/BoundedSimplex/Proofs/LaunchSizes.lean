import BoundedSimplex.Proofs.Chronicle
import BoundedSimplex.Proofs.Folding
import BoundedSimplex.Proofs.HostCalls
import BoundedSimplex.Proofs.Settings

/-!
# Sizes of the Launches

Every launch of a search fits the limits of the device, the kernels and the caller.

The widths of an engine are worked out once, from what the gateway reports, and no
operation changes them. A launch takes its size from them and from the numbers of
columns, rows and partial sums. Only the number of rows may be zero, and only the
exchange is launched over the rows. A search on a system without rows finds no
variable to exchange, so it never gets there.

What the gateway reports need not be true. The device behind it may run narrower
workgroups only, and then it refuses the first launch of every search. So nothing is
known of the values then, but the launches are those of one scan and fit as well.

The dimensions of a launch are machine words. The chunk of a scan and a row that is
rounded up to whole workgroups are products, and a product that does not fit would
leave a dimension too small, or empty. An engine whose chunk does not fit is not made.
One with rows that are too long is, and stops before it launches their sums. So that a
search launches all it has to is known for rows that fit, and only for devices whose
family the gateway compiles kernels for.

## Main definitions

* `Parallel.Keeps`: The widths of an engine and the limits of its device.
* `Solver.Launches`: The launches that were noted between two moments.

## Theorems

* `Parallel.create_geometry`: An engine is made with the widths of its device.
* `Solver.session_keeps`: They are the same after any session.
* `Solver.solve_launches_narrow`: A search on a device that refuses every launch.
* `Parallel.MadeThrough.solve_ne_overflow`: A search of rows that fit is not stopped.
* `launches_fit`: The launches of a search on any device.
* `not_launches_fit`: What happens on a device of another family, and to a row that
  does not fit.
-/

namespace BoundedSimplex

open Exec

/-! ### Devices that refuse every launch -/

/-- What is too wide for a device is not run. -/
theorem HostDevice.launch_narrow {h : HostDevice} {size : LaunchSize}
    (hwide : h.limits.maxWorkgroupSize < size.group.items) (id : Nat) :
    (launch id size).Ends h (fun _ _ => False) fun _ _ => True := by
  cases hrequest : h.request id size with
  | error e => exact ((launch_refused hrequest).mono fun _ _ => trivial).ends
  | ok inv =>
      rcases request_eq_ok hrequest with ⟨k, -, hinv⟩
      cases hvalid : size.validate k.entry.name h.limits.maxWorkgroupSize with
      | error e =>
          rw [CompiledKernel.invocation, hvalid] at hinv
          cases hinv
      | ok _ =>
          have hle := (LaunchSize.validate_eq_ok_iff.mp hvalid).2.2
          exact absurd hwide (Nat.not_lt.mpr hle)

namespace Parallel

variable {p : Parallel} {d : Device} {g : Geometry} {limits : Limits}

/-- No request changes what a device can run. -/
theorem asks_limited {R : Right → Prop} {α : Type} {act : Exec Device α} (h : p.Asks R act) :
    act.Maintains (fun d => d.host.limits = limits) fun _ d => d.host.limits = limits := by
  -- Neither asking nor any operation of the device touches its limits.
  have hask : ∀ r, (Device.ask r).Maintains (fun d => d.host.limits = limits)
      fun _ d => d.host.limits = limits :=
    ask_maintains (I := fun h => h.limits = limits) fun _ _ hd => hd
  cases h with
  | setArg e i a _ _ =>
      exact (hask _).bind fun _ => onHost_maintains (HostDevice.setArg_limited _ i a limits)
  | launch e size _ =>
      exact (hask _).bind fun _ => Maintains.bind (.update fun _ hd => hd) fun _ =>
        onHost_maintains (HostDevice.launch_limited _ size limits)
  | write s offset data _ =>
      exact (hask _).bind fun _ =>
        (onHost_maintains (HostDevice.write_limited _ offset data limits)).bind fun _ =>
          .update fun _ hd => hd
  | read s offset count =>
      exact (hask _).bind fun _ =>
        (onHost_maintains (HostDevice.read_limited _ offset count limits)).bind fun _ =>
          Maintains.bind (.update fun _ hd => hd) fun _ => .pure _
  | look _ _ => exact .view _

section Narrow

variable (hwide : limits.maxWorkgroupSize < p.geometry.workgroup)
  (hlt : p.geometry.workgroup < UInt32.size) (hd : d.host.limits = limits)
include hwide hlt hd

/-- A launch in workgroups of the usual width does not end. -/
theorem run_narrow (e : Entry) (grid : Nat) :
    (p.run e (.linear grid p.geometry.workgroup)).Ends d (fun _ _ => False) fun _ _ => True := by
  have hask := ask_maintains (I := fun h => h.limits = limits) (Q := fun _ _ => True)
    (fun _ _ _ => trivial) .launch d hd
  refine Exec.Yields.emit.ends (hask.bind fun _ d' hd' => Exec.Yields.update.ends ?_)
  refine .focus (HostDevice.launch_narrow ?_ _)
  rw [LaunchSize.items_linear hlt, hd']
  exact hwide

/-- So a scan finds nothing, if it ends. -/
theorem scanChunks_narrow (e : Entry) (offsetArg : Nat) (offsets : List Nat) :
    (p.scanChunks e offsetArg offsets).Ends d (fun r _ => r = none) fun _ _ => True := by
  cases offsets with
  | nil => exact .pure rfl
  | cons offset rest =>
      have hask : p.Asks (fun _ => True) (Device.setArg (p.kernel e) offsetArg (count offset)) :=
        .setArg e offsetArg _ trivial (owns_count p offset)
      have hbind := (asks_limited hask d hd).mono_stop fun _ _ _ => trivial
      refine hbind.bind fun _ d' hd' => ?_
      exact (run_narrow hwide hlt hd' e _).bind fun _ _ hf => hf.elim

theorem checkBounds_narrow : p.checkBounds.Ends d (fun r _ => r = none) fun _ _ => True := by
  have hkept : ∀ {act : Exec Device Unit}, Composed (p.Asks fun _ => True) act →
      act.Maintains (fun d => d.host.limits = limits) fun _ _ => True := fun hact =>
    (Composed.maintains asks_limited (fun _ _ hd => hd) hact).mono_stop fun _ _ _ => trivial
  refine (hkept ensurePrepared_composed d hd).bind fun _ d₁ h₁ => ?_
  refine (hkept (set_composed (s := .output) trivial 0 _) d₁ h₁).bind fun _ d₂ h₂ => ?_
  exact scanChunks_narrow hwide hlt h₂ .checkBounds 1 _

end Narrow

/-- What is known of an operation of the device is known of it in the workspace. -/
theorem onDevice_ends {α : Type} {act : Parallel → Exec Device α} {w : Desk} {P : α → Prop}
    (h : (act w.engine.handle).Ends w.engine.device (fun r _ => P r) fun _ _ => True) :
    (onDevice act).Ends w (fun r _ => P r) fun _ _ => True := by
  unfold onDevice Workspace.onEngine Attached.onDevice
  exact .focus (Exec.Yields.view.ends (.focus h))

/-! ### What stays as it was made -/

/-- The engine has these widths, and its device these limits. Both are fixed when the engine
    is made, and all its launches are worked out from them. -/
structure Keeps (g : Geometry) (limits : Limits) (w : Desk) : Prop where
  geometry : w.engine.handle.geometry = g
  limits : w.engine.device.host.limits = limits

theorem maintains_keeps {R : Right → Prop} {α : Type} {act : Exec Desk α}
    (h : Composed (Moves R) act) : act.Maintains (Keeps g limits) fun _ => Keeps g limits := by
  refine maintains_of_moves (fun w _ act hask d hd => ?_)
    (fun _ _ _ _ hw => ⟨hw.geometry, hw.limits⟩) (fun _ _ _ hw => ⟨hw.geometry, hw.limits⟩)
    (fun _ _ hw => hw) h
  exact (asks_limited hask d hd.limits).mono (fun _ _ hd' => ⟨hd.geometry, hd'⟩)
    fun _ _ hd' => ⟨hd.geometry, hd'⟩

/-- An engine has the widths of its device, whatever else happens while it is made. They are
    worked out from what the gateway reports, before anything is asked of the device. -/
theorem create_geometry (config : Config Binary32) (maxRows numCols : Nat) (d : Device) :
    (create config maxRows numCols).Ends d
      (fun p _ => p.geometry = .ofDevice d.info config.maxWorkgroupSize) fun _ _ => True := by
  have hany : ∀ {α : Type} (act : Exec Device α) (d : Device),
      act.Ends d (fun _ _ => True) fun _ _ => True := fun act d j => by
    cases act ⟨d, j⟩ <;> trivial
  unfold create
  refine Exec.Yields.view.ends ?_
  split
  · exact .fail trivial
  · refine Exec.Ends.word_bind (fun _ => ?_) fun _ => trivial
    refine (hany _ d).bind fun kernels d₁ _ => (hany _ d₁).bind fun bounds d₂ _ => ?_
    -- Of the buffers nothing has to be known: the widths were there before them.
    refine Exec.Ends.bind (P := fun p _ => p.geometry = .ofDevice d.info config.maxWorkgroupSize)
      ?_ fun _ _ hp => Exec.Yields.emit.ends (.pure hp)
    refine .guarded ((hany _ d₂).bind fun tableau d₃ _ => ?_)
    refine .guarded ((hany _ d₃).bind fun colVar d₄ _ => ?_)
    refine .guarded ((hany _ d₄).bind fun rowVar d₅ _ => ?_)
    refine .guarded ((hany _ d₅).bind fun place d₆ _ => ?_)
    refine .guarded ((hany _ d₆).bind fun output d₇ _ => ?_)
    refine .guarded ((hany _ d₇).bind fun first d₈ _ => ?_)
    exact .guarded ((hany _ d₈).bind fun second d₉ _ => .pure rfl)

end Parallel

namespace Solver

variable {g : Geometry} {limits : Limits} {P : LaunchSize → Prop}
  {t u v : Traced (Solver (Attached Parallel) Binary32)}

theorem answer_keeps {o : Operation Binary32} {a : Except Error (Answer Binary32)}
    (ht : Parallel.Keeps g limits t.state.workspace) (h : answer o t = .ok a u) :
    Parallel.Keeps g limits u.state.workspace := by
  have hkept := perform_maintains (I := Parallel.Keeps g limits) Parallel.maintains_keeps
    (fun _ _ hw => ⟨hw.geometry, hw.limits⟩) o t.state ht
  rw [← final_of_answer h]
  exact hkept.final

/-- The widths of an engine are the same after any session. No operation of an engine
    changes them, and none changes the limits of a device. -/
theorem session_keeps {ops : List (Operation Binary32)} :
    ∀ {t : Traced (Solver (Attached Parallel) Binary32)}
      {answers : List (Except Error (Answer Binary32))},
      Parallel.Keeps g limits t.state.workspace → session ops t = .ok answers u →
        Parallel.Keeps g limits u.state.workspace := by
  induction ops with
  | nil =>
      intro t answers ht h
      cases h
      exact ht
  | cons o rest ih =>
      intro t answers ht h
      rcases session_cons h with ⟨a, v, as, hanswer, hrest, -⟩
      exact ih (answer_keeps ht hanswer) hrest

/-! ### Searches -/

/-- Between the two moments the gateway noted launches of these sizes only. -/
def Launches (P : LaunchSize → Prop) : Traced (Solver (Attached Parallel) Binary32) →
    Traced (Solver (Attached Parallel) Binary32) → Prop :=
  Notes (·.device.launches) P

theorem Tells.launches {ns : List Notice} {es : List Event}
    (h : Tells Parallel.Desk.launches P ns es t u) : Launches P t u := h.adds.launches

theorem launches_onWorkspace {γ : Type} {act : Exec Parallel.Desk γ}
    (h : act.Logs Parallel.Desk.launches P ⟨t.state.workspace, t.journal⟩) :
    Launches P t (final (onWorkspace act t)) := (Tells.onWorkspace h).launches

theorem launches_opening : Launches P t (final (opening t)) := by
  let e : Event :=
    .solveStarted t.state.numRows t.state.numCols (Engine.name t.state.workspace.engine)
  have hstarted : Launches P t ⟨t.state, t.journal.push e⟩ := Notes.of_same rfl
  exact Notes.trans hstarted (launches_onWorkspace Parallel.prepare_logs)

theorem launches_halt (e : Stop) : Launches P t (final (halt e t)) := by
  cases e with
  | error e => exact (Tells.abort e).launches
  | outOfRange => exact Notes.of_same rfl
  | overflow => exact Notes.of_same rfl
  | endless => exact Notes.of_same rfl
  | outOfFuel => exact Notes.of_same rfl

section Narrow

variable {limit : Nat} (ht : Parallel.Keeps g limits t.state.workspace)
  (hwide : limits.maxWorkgroupSize < g.workgroup) (hg : g.Sound limit)
include ht hwide hg

/-- On a device that refuses every launch no iteration goes on after its scan, and what the
    iteration leaves behind is what the scan leaves. -/
theorem iterate_narrow (n : Nat) : (∀ u, iterate n t ≠ .ok none u) ∧
    final (iterate n t) = final (onWorkspace Engine.checkBounds t) := by
  -- The first launch of the scan is refused, or there is nothing to scan and no variable is
  -- broken.
  have hends : (onWorkspace Engine.checkBounds :
      Exec (Solver (Attached Parallel) Binary32) _).Ends t.state (fun r _ => r = none)
        fun _ _ => True := by
    refine .focus (Parallel.onDevice_ends ?_)
    have hgeometry : t.state.workspace.engine.handle.geometry = g := ht.geometry
    exact Parallel.checkBounds_narrow (by rw [hgeometry]; exact hwide)
      (by rw [hgeometry]; exact hg.workgroup_lt) ht.limits
  cases hcheck : (onWorkspace Engine.checkBounds :
      Exec (Solver (Attached Parallel) Binary32) _) t with
  -- No broken variable: the iteration ends with its verdict.
  | ok r u =>
      have hr : r = none := hends.result hcheck
      subst hr
      have hrun : iterate n t = .ok (some true) u := bind_ok hcheck
      rw [hrun]
      refine ⟨fun v hv => ?_, rfl⟩
      cases hv
  | error e u =>
      have hrun : iterate n t = .error e u := bind_error hcheck
      rw [hrun]
      refine ⟨fun v hv => ?_, rfl⟩
      cases hv

/-- So there is one iteration at most, and the launches are those of its scan. Which sizes
    these have is shown without any assumption on the widths. -/
theorem solve_launches_narrow (hphase : t.state.phase = .building) (fuel : Nat) :
    Launches (·.Fits limit) t (final (solve fuel t)) := by
  have hopening : Launches (·.Fits limit) t (final (opening t)) := launches_opening
  have hkept : ∀ {u}, opening t = .ok () u → Parallel.Keeps g limits u.state.workspace :=
    fun hopen => (maintains_of_moves (R := fun _ => True) Parallel.maintains_keeps
      (fun _ _ hw => hw) (opening_moves fun _ _ => trivial) _ ht).result hopen
  rcases solve_closing hphase fuel with ⟨e, u, hopen, hsolve⟩ | ⟨n, w, hreach, hclosing⟩
  · rw [hopen] at hopening
    rw [hsolve]
    exact Notes.trans hopening (launches_halt e)
  -- Only an exchange leads to a second iteration.
  have hfirst : ∀ {n w}, Reaches t n w → opening t = .ok () w := by
    intro n w hreach
    induction hreach with
    | start _ hopen => exact hopen
    | next _ hit ih => exact absurd hit ((iterate_narrow (hkept ih) hwide hg _).1 _)
  have hw := hkept (hfirst hreach)
  rw [hfirst hreach] at hopening
  have hscan : Launches (·.Fits limit) w (final (iterate n w)) := by
    rw [(iterate_narrow hw hwide hg n).2]
    refine launches_onWorkspace (Parallel.onDevice_logs fun _ => ?_)
    exact Parallel.checkBounds_logs (by rw [hw.geometry]; exact hg) _
  refine Notes.trans hopening ?_
  generalize solve fuel t = r at hclosing
  cases hclosing with
  | verdict _ hit =>
      rw [hit] at hscan
      exact Notes.trans hscan (Tells.finish _).launches
  | stopped _ hit =>
      rw [hit] at hscan
      exact Notes.trans hscan (launches_halt _)
  | fuel _ => exact Notes.of_same rfl

end Narrow

end Solver

/-! ### All searches -/

namespace Parallel

variable {info : DeviceInfo} {limits : Limits} {maxRows numCols : Nat} {config : Config Binary32}
  {t : Traced (Solver (Attached Parallel) Binary32)}

theorem MadeThrough.widest (h : MadeThrough info limits maxRows numCols config t) :
    (Geometry.ofDevice info config.maxWorkgroupSize).Widest info config.maxWorkgroupSize := by
  rcases h with ⟨d, j, s, u, j', -, rfl, -, hmake, -⟩
  rcases input_of_parallel hmake with ⟨hinput, hlimit, -⟩
  exact Geometry.widest_ofDevice hlimit
    (Solver.validate_eq_ok (Solver.checkInput_eq_ok hinput).2).2.2

theorem MadeThrough.sound (h : MadeThrough info limits maxRows numCols config t) :
    (Geometry.ofDevice info config.maxWorkgroupSize).Sound
      (Geometry.limit info config.maxWorkgroupSize) := by
  have hwidest := h.widest
  rcases h with ⟨d, j, s, u, j', -, rfl, -, hmake, -⟩
  exact hwidest.sound (input_of_parallel hmake).2.2

theorem MadeThrough.keeps (h : MadeThrough info limits maxRows numCols config t) :
    Keeps (.ofDevice info config.maxWorkgroupSize) limits t.state.workspace := by
  rcases h with ⟨d, j, s, u, j', hrefuse, rfl, rfl, hmake, rfl⟩
  rcases created_of_parallel hrefuse hmake with ⟨p, rfl, hp⟩
  exact ⟨hp.geometry, hp.host⟩

/-- A search on a device that runs the workgroups it was said to run. A pivot comes
    after a row was found, so its launches are not empty either. -/
theorem MadeThrough.launches_wide (h : MadeThrough info limits maxRows numCols config t)
    (hwide : (Geometry.ofDevice info config.maxWorkgroupSize).workgroup ≤ limits.maxWorkgroupSize)
    {ops : List (Operation Binary32)} {answers : List (Except Error (Answer Binary32))}
    {u : Traced (Solver (Attached Parallel) Binary32)}
    (hrun : Solver.session ops t = .ok answers u) (hphase : u.state.phase = .building)
    (fuel : Nat) : Solver.Launches (·.Fits (Geometry.limit info config.maxWorkgroupSize)) u
      (final (Solver.solve fuel u)) := by
  rcases stage_of_madeThrough h hwide with ⟨-, hstage⟩
  rcases (hstage.after_session hrun).tells (logs h.sound.le) hphase fuel with
    ⟨p, l, bases, ns, es, w, -, -, haccounts, -, htold⟩
  exact (haccounts.tells.trans htold).launches

/-- Such a search is not stopped for want of room in a word if its rows fit. The only number
    that a search has to fit into a word is the length of a rounded row. -/
theorem MadeThrough.solve_ne_overflow (h : MadeThrough info limits maxRows numCols config t)
    (hwide : (Geometry.ofDevice info config.maxWorkgroupSize).workgroup ≤ limits.maxWorkgroupSize)
    (hwords : (Geometry.ofDevice info config.maxWorkgroupSize).InWords numCols)
    {ops : List (Operation Binary32)} {answers : List (Except Error (Answer Binary32))}
    {u : Traced (Solver (Attached Parallel) Binary32)}
    (hrun : Solver.session ops t = .ok answers u) (fuel : Nat)
    (v : Traced (Solver (Attached Parallel) Binary32)) :
    Solver.solve fuel u ≠ .error .overflow v := by
  rcases stage_of_madeThrough h hwide with ⟨-, hstage⟩
  -- Compared with itself, the search comes back, runs out of steps or meets an obstacle of its
  -- sums.
  have halike := Solver.search_alike rfl (hstage.after_session hrun) fuel
    fun _ _ _ _ => Solver.sumsMatchAt_self _
  intro hstop
  rw [hstop] at halike
  cases halike with
  | error he =>
      cases he with
      | cut hcut =>
          cases hcut with
          | @stuck o _ hobstacle ho =>
              cases o with
              -- And that a row fits a word is what rules out this one.
              | overflow => exact sumObstacle_ne_overflow hwords.row hobstacle
              | endless => cases ho

end Parallel

/-- For any device and any cap an engine that is made has the largest widths. On a device
    of the family the gateway runs it is made, unless the chunk does not fit a word. Every
    launch of a search of rows that fit has no empty dimension and workgroups that are
    allowed. The device behind the gateway need not be the one that the gateway reports.
    If it is as wide, no search is stopped for want of room in a word. -/
theorem launches_fit (info : DeviceInfo) (maxRows numCols : Nat) (config : Config Binary32) :
    (∀ d j p u, d.info = info → config.validate = .ok () →
      Parallel.create config maxRows numCols ⟨d, j⟩ = .ok p u →
      p.geometry.Widest info config.maxWorkgroupSize) ∧
    (∀ d, d.refuse = none → d.info = info → info.family = .host → info.maxWorkgroupSize ≠ 0 →
      (Geometry.ofDevice info config.maxWorkgroupSize).chunk < UInt32.size →
      Solver.checkInput maxRows numCols config = .ok () →
      (Parallel.create config maxRows numCols).Gives d fun p _ =>
        p.geometry.Widest info config.maxWorkgroupSize) ∧
    ∀ limits t ops answers u fuel, Parallel.MadeThrough info limits maxRows numCols config t →
      (Geometry.ofDevice info config.maxWorkgroupSize).InWords numCols →
      Solver.session ops t = .ok answers u →
      u.state.workspace.engine.handle.geometry.Widest info config.maxWorkgroupSize ∧
        Solver.Launches (·.Fits (Geometry.limit info config.maxWorkgroupSize)) u
          (final (Solver.solve fuel u)) ∧
        ((Geometry.ofDevice info config.maxWorkgroupSize).workgroup ≤ limits.maxWorkgroupSize →
          ∀ v, Solver.solve fuel u ≠ .error .overflow v) := by
  refine ⟨?_, ?_, ?_⟩
  · rintro d j p u rfl hvalid hcreate
    rw [(Parallel.create_geometry config maxRows numCols d).result hcreate]
    exact Geometry.widest_ofDevice (Parallel.maxWorkgroupSize_of_create hcreate)
      (Solver.validate_eq_ok hvalid).2.2
  · rintro d hrefuse rfl hfamily hlimit hchunk hinput
    rcases Solver.checkInput_eq_ok hinput with ⟨hdim, hvalid⟩
    rcases Solver.checkDimensions_eq_ok hdim with ⟨hrows, hcols, hsize⟩
    have hcap := (Solver.validate_eq_ok hvalid).2.2
    refine (Parallel.create_leaves ⟨hrefuse, rfl⟩ hfamily hrows hcols hsize hcap hlimit
      hchunk).mono fun p d' hp => ?_
    rw [hp.geometry]
    exact Geometry.widest_ofDevice hlimit hcap
  · intro limits t ops answers u fuel hmade hwords hrun
    have hkept := Solver.session_keeps hmade.keeps hrun
    refine ⟨by rw [hkept.geometry]; exact hmade.widest, ?_,
      fun hwide => hmade.solve_ne_overflow hwide hwords hrun fuel⟩
    by_cases hphase : u.state.phase = .building
    · rcases Nat.lt_or_ge limits.maxWorkgroupSize
        (Geometry.ofDevice info config.maxWorkgroupSize).workgroup with hnarrow | hwide
      · exact Solver.solve_launches_narrow hkept hnarrow hmade.sound hphase fuel
      · exact hmade.launches_wide hwide hrun hphase fuel
    · -- A solver that has searched before launches nothing more.
      rw [Solver.final_frozen hphase fuel]
      exact Notes.of_same rfl

/-- Workgroups of at most three items. -/
def threeConfig : Config Binary32 := ⟨⟨0x358637bd⟩, none, some 3⟩

/-- On a device that runs five items, a search that makes one exchange is launched in
    workgroups of two. -/
theorem launches_fit_three :
    (∃ p u, Parallel.create threeConfig 1 2 ⟨.toHost (.idle ⟨5, 2⟩), #[]⟩ = .ok p u ∧
      p.geometry.Widest (HostDevice.idle ⟨5, 2⟩).info (some 3)) ∧
    ∃ (t u : Traced (Solver (Attached Parallel) Binary32)),
      Parallel.MadeThrough (HostDevice.idle ⟨5, 2⟩).info ⟨5, 2⟩ 1 2 threeConfig t ∧
      (∃ answers, Solver.session (raisingSession.take 2) t = .ok answers u) ∧
      u.state.workspace.engine.handle.geometry.Widest (HostDevice.idle ⟨5, 2⟩).info (some 3) ∧
      Solver.Launches (·.Fits (Geometry.limit (HostDevice.idle ⟨5, 2⟩).info (some 3))) u
        (final (Solver.solve 2 u)) ∧
      u.state.device.launches = [] ∧
      (final (Solver.solve 2 u)).state.device.launches.length = 9 := by
  -- A cap of three leaves workgroups of two, the largest power of two under it.
  rcases launches_fit (HostDevice.idle ⟨5, 2⟩).info 1 2 threeConfig with ⟨hmakes, hends, hsearches⟩
  constructor
  · rcases hends (.toHost (.idle ⟨5, 2⟩)) rfl rfl rfl (by decide) (by decide) (by decide +kernel)
      #[] with ⟨p, d, j, hcreate, -⟩
    exact ⟨p, ⟨d, j⟩, hcreate, hmakes _ _ p _ rfl (by decide +kernel) hcreate⟩
  · have hrun : endsWith (Solver.parallel 1 2 threeConfig ⟨.toHost (.idle ⟨5, 2⟩), #[]⟩)
        (fun s x => endsWith (Solver.session (raisingSession.take 2) ⟨s.attach x.state, #[]⟩)
          fun _ u => decide (u.state.device.launches.length = 0) &&
          endsWith (Solver.solve 2 u) fun _ v =>
            decide (v.state.device.launches.length = 9)) = true := by decide +kernel
    rcases exists_of_endsWith hrun with ⟨s, x, hmake, hrest⟩
    rcases exists_of_endsWith hrest with ⟨answers, u, hsession, htest⟩
    rcases Bool.and_eq_true_iff.mp htest with ⟨hbefore, hsearch⟩
    rcases exists_of_endsWith hsearch with ⟨sat, v, hsolve, hafter⟩
    have hmade : Parallel.MadeThrough (HostDevice.idle ⟨5, 2⟩).info ⟨5, 2⟩ 1 2 threeConfig
        ⟨s.attach x.state, #[]⟩ := ⟨_, #[], s, x, #[], rfl, rfl, rfl, hmake, rfl⟩
    rcases hsearches _ _ _ answers u 2 hmade (by decide) hsession with ⟨hwidest, hlaunches, -⟩
    refine ⟨_, u, hmade, ⟨answers, hsession⟩, hwidest, hlaunches, ?_, ?_⟩
    · exact List.eq_nil_of_length_eq_zero (of_decide_eq_true hbefore)
    · rw [hsolve]
      exact of_decide_eq_true hafter

/-- On a gateway that reports another family than the device behind it has, no engine is
    made, since the first kernel is refused. And the longest row is too long for workgroups
    of 256 items: a launch over that many items would have an empty dimension, and the
    engine stops before it. -/
theorem not_launches_fit :
    (∃ d : Device, d.refuse = none ∧ d.info = ⟨.cuda, "", 256, 4⟩ ∧
      (Parallel.create Config.standard 1 1).Stops d
        (.error (.foreignSource (.generalSimplex .cuda))) fun _ => True) ∧
    (LaunchSize.linear (ceilDiv (2 ^ 32 - 2) 256 * 256) 256).grid.hasEmpty = true ∧
    ∃ w : Parallel.Desk,
      w.engine.handle.geometry = .ofDevice (HostDevice.idle ⟨256, 1⟩).info none ∧
        Parallel.Shows 256 w (.zeroRow (2 ^ 32 - 2)) ∧
        (Engine.updateAssignment : Exec Parallel.Desk Unit).Stops w .overflow fun _ => True := by
  refine ⟨⟨{ Device.toHost (.idle ⟨256, 4⟩) with info := ⟨.cuda, "", 256, 4⟩ }, rfl, rfl, ?_⟩,
    by decide, Parallel.exists_overflow⟩
  -- The host runs kernels of its own family only, so the first compilation fails. That the
  -- dimension is empty is the rounded count being a multiple of the size of a word.
  refine Exec.Yields.view.stops ?_
  rw [if_neg (by decide)]
  refine (Exec.Yields.word (by decide)).stops ?_
  exact fun j => ⟨_, j, rfl, trivial⟩

end BoundedSimplex
