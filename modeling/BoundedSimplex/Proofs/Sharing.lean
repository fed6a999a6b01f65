import BoundedSimplex.Proofs.Bookkeeping
import BoundedSimplex.Proofs.Ownership
import BoundedSimplex.Proofs.Settings

/-!
# Sharing a Device

Solvers on one device do not interfere with each other.

Several users share a device, and each has a solver of its own on it. They make
their solvers, use them and drop them in any order, one step at a time. Each user
has a `Seat`, which is the device with the room for one solver, and the device
with all the seats is a `Bench`. A user who had a device of its own would have a
seat there, and nobody else would touch it. What is compared are the replies, and
they are the same.

All solvers use the same numbers, and what one of them binds and writes stays on
the device while others work. But numbers are given out once, so what a solver is
given when it is made belongs to nobody, and a step of a user only touches what
its own solver owns. So the step leaves all other solvers where they are, and its
own solver goes where it would go alone. The latter needs nothing new. On two
devices on which a solver finds the same, it is at the same stage of the same
search, and two solvers at one stage answer alike, whatever the numbers are.

A user whose search does not end would stop all the others, and so would one whose
engine stops at a number that does not fit a word. That is not counted as interference,
but then it must come to the same on a device of its own.

## Main definitions

* `Action`, `Reply`: What a user wants and is told.
* `Seat`, `Seat.act`: A user on a device, and one step of it.
* `Bench`, `Bench.run`: Users on one device, and their steps in some order.
* `Seat.Tied`: A user on two devices, at one stage.
* `Seat.Minds`: A step of a user that only touches what its solver owns.
* `Bench.Models`: Each user is where it would be alone.
* `Bench.Agrees`: Each user is told what it is told alone.

## Theorems

* `Solver.Stage.onDevice`: What others do does not change the stage of a solver.
* `Seat.act_alike`: One step on two devices, and what it means to others.
* `Bench.Models.withSeat`: A step of one user does not move the others.
* `Bench.outcome_run_as_alone`: Each user is told what it is told alone.
-/

namespace BoundedSimplex

open Exec

/-! ### Users of one device -/

/-- What a user of a device does with a solver of its own. -/
inductive Action where
  | make (maxRows numCols : Nat) (config : Config Binary32)
  | operate (o : Operation Binary32)
  | name
  | drop

/-- What the user is told. -/
inductive Reply where
  | made
  | refused (e : Error)
  | answered (a : Except Error (Answer Binary32))
  | named (name : String)
  | dropped
  /-- Nothing was done, since there is no solver, or one already. -/
  | idle

/-- A device with room for the solver of one user. If there is no solver, the user has
    dropped it or not made one yet. -/
structure Seat where
  device : Device
  solver? : Option (Solver Parallel Binary32)

namespace Seat

/-- A device on which the user has no solver. -/
def vacant (d : Device) : Seat := ⟨d, none⟩

/-- Make a solver. -/
def make (maxRows numCols : Nat) (config : Config Binary32) : Exec Seat Reply :=
  Exec.onError (do
    let s ← Exec.focus (·.device) (fun d seat => { seat with device := d })
      (Solver.parallel maxRows numCols config)
    Exec.update fun seat => { seat with solver? := some s }
    pure .made) fun e => pure (.refused e)

/-- Carry out an operation of a solver. -/
def operate (s : Solver Parallel Binary32) (o : Operation Binary32) : Exec Seat Reply := do
  let d ← Exec.view (·.device)
  let (a, s) ← Exec.aside (s.attach d) (Solver.answer o)
  Exec.put ⟨s.device, some s.detach⟩
  pure (.answered a)

/-- Do what the user wants. -/
def act (x : Action) : Exec Seat Reply := do
  let seat ← Exec.state
  match x, seat.solver? with
  | .make maxRows numCols config, none => make maxRows numCols config
  | .operate o, some s => operate s o
  | .name, some s => pure (.named s.workspace.engine.name)
  | .drop, some s => do
    Exec.put ⟨s.drop seat.device, none⟩
    pure .dropped
  | _, _ => pure .idle

/-- Do what the user wants, one thing after the other. -/
def run (xs : List Action) : Exec Seat (List Reply) := xs.mapM act

end Seat

/-- A device with room for a solver of each user. There is one memory and one table of
    kernels, and what keeps the users apart is only which numbers they were handed. -/
structure Bench (ι : Type) where
  device : Device
  solver? : ι → Option (Solver Parallel Binary32)

namespace Bench

variable {ι : Type}

/-- A device on which no user has a solver. -/
def vacant (d : Device) : Bench ι := ⟨d, fun _ => none⟩

/-- What a user sees. -/
def seat (b : Bench ι) (i : ι) : Seat := ⟨b.device, b.solver? i⟩

variable [DecidableEq ι]

/-- What a user leaves. -/
def withSeat (b : Bench ι) (i : ι) (seat : Seat) : Bench ι :=
  ⟨seat.device, Function.update b.solver? i seat.solver?⟩

/-- Do what one user wants. -/
def act (i : ι) (x : Action) : Exec (Bench ι) Reply :=
  Exec.focus (·.seat i) (fun seat b => b.withSeat i seat) (Seat.act x)

/-- Do what one user wants, and note who it was. -/
def step (event : ι × Action) : Exec (Bench ι) (ι × Reply) := do
  let r ← act event.1 event.2
  pure (event.1, r)

/-- Do what the users want, in this order. -/
def run (events : List (ι × Action)) : Exec (Bench ι) (List (ι × Reply)) := events.mapM step

end Bench

/-- The part of one user. -/
def ofUser {ι X : Type} [DecidableEq ι] (i : ι) (l : List (ι × X)) : List X :=
  l.filterMap fun q => if q.1 = i then some q.2 else none

section OfUser

variable {ι X : Type} [DecidableEq ι] {i k : ι}

theorem ofUser_cons_same (i : ι) (x : X) (l : List (ι × X)) :
    ofUser i ((i, x) :: l) = x :: ofUser i l := by
  rw [ofUser, List.filterMap_cons, if_pos rfl, ofUser]

theorem ofUser_cons_other (h : k ≠ i) (x : X) (l : List (ι × X)) :
    ofUser k ((i, x) :: l) = ofUser k l := by
  rw [ofUser, List.filterMap_cons, if_neg (Ne.symm h), ofUser]

end OfUser

/-! ### One step of one user -/

namespace Solver

variable {limits : Limits} {d d' : Device} {s s' : Solver Parallel Binary32}

/-- A solver on one device and a solver on another that are at one stage. -/
structure Paired (limits : Limits) (d d' : Device) (s s' : Solver Parallel Binary32) : Prop where
  stage : ∃ width maxRows numCols config, Stage (Parallel.reading width) (Parallel.reading width)
    maxRows numCols config (s.attach d) (s'.attach d')
  left : s.workspace.engine.info = (Device.ofLimits limits).info
  right : s'.workspace.engine.info = (Device.ofLimits limits).info

/-- The solver has on its device what it owns. -/
def Has (s : Solver Parallel Binary32) (d : Device) : Prop :=
  Owns s.workspace.engine.bufferIds s.workspace.engine.kernelIds (s.attach d)

/-- The solver owns none of these buffers and kernels. -/
structure Apart (s : Solver Parallel Binary32) (buffers kernels : List Nat) : Prop where
  buffers : s.workspace.engine.bufferIds.Disjoint buffers
  kernels : s.workspace.engine.kernelIds.Disjoint kernels

theorem Apart.symm {t : Solver Parallel Binary32}
    (h : s.Apart t.workspace.engine.bufferIds t.workspace.engine.kernelIds) :
    t.Apart s.workspace.engine.bufferIds s.workspace.engine.kernelIds :=
  ⟨List.disjoint_symm h.buffers, List.disjoint_symm h.kernels⟩

/-- On a device on which its own things are the same a solver is at the same stage. That is
    why what others do does not matter. -/
theorem Stage.onDevice {β : Type} [Engine β Binary32] {width maxRows numCols : Nat}
    {config : Config Binary32} {R : Engine.Reading β Binary32}
    {s : Solver (Attached Parallel) Binary32} {s' : Solver β Binary32}
    (h : Stage (Parallel.reading width) R maxRows numCols config s s')
    (hd : s.workspace.engine.handle.SameOn s.device d) :
    Stage (Parallel.reading width) R maxRows numCols config (s.withDevice d) s' := by
  cases h with
  | building hp hphase hconfig hhistory htwins =>
      exact .building hp hphase hconfig hhistory ⟨Parallel.Ready.onDevice htwins.left hd,
        htwins.right, htwins.face_left, htwins.face_right⟩
  | finished hp hphase hsearched =>
      rcases hsearched with ⟨hrun, htwins, hconfig, hhistory⟩
      exact .finished hp hphase (.at hrun ⟨Parallel.Shows.onDevice htwins.left hd, htwins.right,
        htwins.face_left, htwins.face_right⟩ hconfig hhistory)

/-- What others do to the rest of the device makes no difference. -/
theorem Paired.respected {d₁ : Device} (h : Paired limits d d' s s') (hs : s.Has d)
    (hd : d₁.refuse = none) (hr : HostDevice.Respects s.workspace.engine.bufferIds
      s.workspace.engine.kernelIds d.host d₁.host) : Paired limits d₁ d' s s' := by
  rcases h.stage with ⟨width, maxRows, numCols, config, hstage⟩
  refine ⟨⟨width, maxRows, numCols, config, hstage.onDevice ⟨hd, fun t => ?_, fun e => ?_, ?_⟩⟩,
    h.left, h.right⟩
  · exact hr.words _ (hs.owner.slot_mem t)
  · exact hr.kernels _ (hs.owner.kernel_mem e)
  · exact hr.limits

/-- A solver that can be made is made on every truthful device with these limits. Otherwise
    it is made on none of them, for the same reason, and none is touched. Either the input is
    refused, or the device runs no workgroup, or its chunk does not fit a word. -/
theorem parallel_cases (limits : Limits) (maxRows numCols : Nat) (config : Config Binary32) :
    (checkInput maxRows numCols config = .ok () ∧ limits.maxWorkgroupSize ≠ 0 ∧
        (Geometry.ofDevice (Device.ofLimits limits).info config.maxWorkgroupSize).chunk
          < UInt32.size) ∨
      ∃ e : Stop, ((∃ error, e = .error error) ∨ e = .overflow) ∧ ∀ d : Device, d.Truthful limits →
        (parallel maxRows numCols config).Stops d e fun d' => d' = d := by
  -- What decides is the input and the limits, which are the same on all of the devices. They are
  -- tested in this order by the solver too.
  cases hinput : checkInput maxRows numCols config with
  | error e =>
      refine .inr ⟨.error e, .inl ⟨e, rfl⟩, fun d _ => ?_⟩
      exact Exec.Stops.bind (Exec.Stops.check hinput rfl)
  | ok _ =>
      by_cases hlimit : limits.maxWorkgroupSize = 0
      · refine .inr ⟨_, .inl ⟨.zeroWorkgroup (Device.ofLimits limits).info, rfl⟩, fun d hd => ?_⟩
        refine (Exec.Yields.check hinput).stops (Exec.Stops.bind (Exec.Yields.view.stops ?_))
        rw [if_pos (by rw [hd.info]; exact hlimit), hd.info]
        exact Exec.Stops.fail rfl
      rcases Nat.lt_or_ge (Geometry.ofDevice (Device.ofLimits limits).info
        config.maxWorkgroupSize).chunk UInt32.size with hchunk | hover
      · exact .inl ⟨rfl, hlimit, hchunk⟩
      · refine .inr ⟨_, .inr rfl, fun d hd => ?_⟩
        refine (Exec.Yields.check hinput).stops (Exec.Stops.bind (Exec.Yields.view.stops ?_))
        rw [if_neg (by rw [hd.info]; exact hlimit), hd.info]
        exact Exec.Stops.bind (Exec.Stops.word (P := fun d' => d' = d) hover rfl)

end Solver

/-- What was handed out belonged to nobody. -/
theorem Device.Gained.disjoint {d d' : Device} {buffers kernels : List Nat}
    (h : d.Gained d' buffers kernels) {buffers' kernels' : List Nat}
    (hh : HostDevice.Holds buffers' kernels' d.host) :
    buffers.Disjoint buffers' ∧ kernels.Disjoint kernels' := by
  constructor
  · intro id hnew hold
    rcases Option.isSome_iff_exists.mp (hh.live id hold) with ⟨ws, hws⟩
    exact Nat.not_lt_of_le (h.buffers.taken id hnew).1 (Memory.lt_nextId hws)
  · intro id hnew hold
    rcases hh.bound id hold with ⟨k, hk, -⟩
    rw [Array.getElem?_eq_none (h.kernels.taken id hnew).1] at hk
    cases hk

/-- A solver that is made on a truthful device, which knows what the device reported. -/
theorem Device.Truthful.parallel_made {limits : Limits} {d : Device} (hd : d.Truthful limits)
    {maxRows numCols : Nat} {config : Config Binary32}
    (hinput : Solver.checkInput maxRows numCols config = .ok ())
    (hlimit : limits.maxWorkgroupSize ≠ 0)
    (hchunk : (Geometry.ofDevice (Device.ofLimits limits).info config.maxWorkgroupSize).chunk
      < UInt32.size) (j : Journal) :
    ∃ s u, Solver.parallel maxRows numCols config ⟨d, j⟩ = .ok s u ∧
      Solver.Describes (Parallel.Ready
          (Geometry.ofDevice (Device.ofLimits limits).info config.maxWorkgroupSize).workgroup)
        (s.attach u.state) (s.attach u.state) (.blank maxRows numCols) ∧
      (∃ engine, s = Solver.fresh maxRows numCols config engine) ∧
      Solver.Informed limits (s.attach u.state) := by
  have hcan : d.host.info.maxWorkgroupSize ≠ 0 := by
    rw [← hd.info_eq, hd.info]
    exact hlimit
  rw [← hd.info, hd.info_eq] at hchunk
  rcases Parallel.parallel_gives hinput hd.serves hd.info_eq hcan hchunk j with
    ⟨s, d', j', hmake, hgeometry, hdesc, -, hfresh⟩
  rcases (hd.parallel_ends maxRows numCols config).result hmake with ⟨hinfo, hd'⟩
  rw [hgeometry, ← hd.info_eq, hd.info] at hdesc
  exact ⟨s, ⟨d', j'⟩, hmake, hdesc, hfresh, hd', hinfo⟩

namespace Seat

variable {limits : Limits} {seat seat' : Seat} {j j' : Journal}

/-- The same user on two devices, at one stage. Both devices tell the truth about the same
    limits, which is all that a solver learns of a device. -/
structure Tied (limits : Limits) (seat seat' : Seat) : Prop where
  left : seat.device.Truthful limits
  right : seat'.device.Truthful limits
  solvers : Option.Rel (Solver.Paired limits seat.device seat'.device) seat.solver? seat'.solver?

/-- What others do to the rest of the device does not move the user. -/
theorem Tied.onDevice (h : Tied limits seat seat') {d : Device} (hd : d.Truthful limits)
    (hhas : ∀ s, seat.solver? = some s → s.Has seat.device)
    (hr : ∀ s, seat.solver? = some s → HostDevice.Respects s.workspace.engine.bufferIds
      s.workspace.engine.kernelIds seat.device.host d.host) :
    Tied limits ⟨d, seat.solver?⟩ seat' := by
  rcases seat with ⟨d₀, held⟩
  rcases seat' with ⟨d', held'⟩
  rcases h with ⟨-, hd', hsolvers⟩
  cases hsolvers with
  | none => exact ⟨hd, hd', .none⟩
  | @some s s' hp => exact ⟨hd, hd', .some (hp.respected (hhas s rfl) hd.refuse (hr s rfl))⟩

/-- What a user does to a device: what it then owns is there, and what others own is as it
    was and stays theirs. What others own is any set of buffers and kernels that are there,
    so one statement covers all other users together. -/
structure Minds (seat next : Seat) : Prop where
  has : ∀ s, next.solver? = some s → s.Has next.device
  others : ∀ buffers kernels, HostDevice.Holds buffers kernels seat.device.host →
    (∀ s, seat.solver? = some s → s.Apart buffers kernels) →
    HostDevice.Respects buffers kernels seat.device.host next.device.host ∧
      ∀ s, next.solver? = some s → s.Apart buffers kernels

theorem make_eq_made {maxRows numCols : Nat} {config : Config Binary32}
    {s : Solver Parallel Binary32} {u : Traced Device}
    (h : Solver.parallel maxRows numCols config ⟨seat.device, j⟩ = .ok s u) :
    make maxRows numCols config ⟨seat, j⟩ = .ok .made ⟨⟨u.state, some s⟩, u.journal⟩ := by
  unfold make Exec.onError
  rw [bind_ok (focus_ok h)]
  rfl

theorem make_eq_refused {maxRows numCols : Nat} {config : Config Binary32} {e : Error}
    {u : Traced Device}
    (h : Solver.parallel maxRows numCols config ⟨seat.device, j⟩ = .error (.error e) u) :
    make maxRows numCols config ⟨seat, j⟩
      = .ok (.refused e) ⟨⟨u.state, seat.solver?⟩, u.journal⟩ := by
  unfold make Exec.onError
  rw [bind_error (focus_error h)]
  rfl

theorem make_eq_overflow {maxRows numCols : Nat} {config : Config Binary32} {u : Traced Device}
    (h : Solver.parallel maxRows numCols config ⟨seat.device, j⟩ = .error .overflow u) :
    make maxRows numCols config ⟨seat, j⟩
      = .error .overflow ⟨⟨u.state, seat.solver?⟩, u.journal⟩ := by
  unfold make Exec.onError
  rw [bind_error (focus_error h)]

theorem operate_eq_answered {s : Solver Parallel Binary32} {o : Operation Binary32}
    {a : Except Error (Answer Binary32)} {u : Traced (Solver (Attached Parallel) Binary32)}
    (h : Solver.answer o ⟨s.attach seat.device, j⟩ = .ok a u) :
    operate s o ⟨seat, j⟩
      = .ok (.answered a) ⟨⟨u.state.device, some u.state.detach⟩, u.journal⟩ := by
  simp only [operate, Exec.view, Exec.aside, Exec.put, Bind.bind, EStateM.bind, h]
  rfl

theorem operate_eq_stop {s : Solver Parallel Binary32} {o : Operation Binary32} {e : Stop}
    {u : Traced (Solver (Attached Parallel) Binary32)}
    (h : Solver.answer o ⟨s.attach seat.device, j⟩ = .error e u) :
    operate s o ⟨seat, j⟩ = .error e ⟨seat, u.journal⟩ := by
  simp only [operate, Exec.view, Exec.aside, Bind.bind, EStateM.bind, h]

theorem Minds.refl (h : ∀ s, seat.solver? = some s → s.Has seat.device) : seat.Minds seat :=
  ⟨h, fun _ _ _ hapart => ⟨⟨fun _ _ => rfl, fun _ _ => rfl, rfl⟩, hapart⟩⟩

/-- What changes belongs to the user. -/
theorem others_of_spares {d d' : Device} {s : Solver Parallel Binary32} (h : d.Truthful limits)
    (h' : d'.Truthful limits) {buffers kernels : List Nat} (hapart : s.Apart buffers kernels)
    (hspares : HostDevice.Spares s.workspace.engine.bufferIds s.workspace.engine.kernelIds d.host
      d'.host) : HostDevice.Respects buffers kernels d.host d'.host :=
  ⟨fun id hid => hspares.words id fun hown => hapart.buffers hown hid,
    fun id hid => hspares.kernels id fun hown => hapart.kernels hown hid,
    h'.same.trans h.same.symm⟩

/-- Nothing that anybody has is handed out again. -/
theorem minds_made {d d' : Device} {s : Solver Parallel Binary32} (h : d.Truthful limits)
    (h' : d'.Truthful limits) (hhas : s.Has d')
    (hgained : d.Gained d' s.workspace.engine.bufferIds s.workspace.engine.kernelIds) :
    (vacant d).Minds ⟨d', some s⟩ := by
  refine ⟨fun _ hs => ?_, fun buffers kernels hholds _ => ?_⟩
  · cases hs
    exact hhas
  · rcases hgained.disjoint hholds with ⟨hbuffers, hkernels⟩
    refine ⟨⟨fun id hid => ?_, fun id hid => ?_, h'.same.trans h.same.symm⟩, fun _ hs => ?_⟩
    · exact hgained.buffers.kept id fun hnew => hbuffers hnew hid
    · exact hgained.kernels.kept id fun hnew => hkernels hnew hid
    · cases hs
      exact ⟨hbuffers, hkernels⟩

/-- A solver owns the same after an operation, and nothing else has changed. -/
theorem minds_answered {d : Device} {s : Solver Parallel Binary32} {o : Operation Binary32}
    {a : Except Error (Answer Binary32)} {u : Traced (Solver (Attached Parallel) Binary32)}
    (h : d.Truthful limits) (hu : u.state.device.Truthful limits) (hhas : s.Has d)
    (hrun : Solver.answer o ⟨s.attach d, j⟩ = .ok a u) :
    Minds ⟨d, some s⟩ ⟨u.state.device, some u.state.detach⟩ := by
  rcases Solver.Owns.answered (t := ⟨s.attach d, j⟩) hhas hrun with ⟨howns, hspares⟩
  -- An operation neither makes nor releases a buffer or a kernel of its solver.
  have hbuffers : u.state.detach.workspace.engine.bufferIds = s.workspace.engine.bufferIds :=
    howns.owner.buffers
  have hkernels : u.state.detach.workspace.engine.kernelIds = s.workspace.engine.kernelIds :=
    howns.owner.kernels
  refine ⟨fun _ hnext => ?_, fun buffers kernels _ hapart => ?_⟩
  · cases hnext
    unfold Solver.Has
    rw [hbuffers, hkernels]
    exact howns
  · have hs := hapart s rfl
    refine ⟨others_of_spares h hu hs hspares, fun _ hnext => ?_⟩
    cases hnext
    exact ⟨hbuffers ▸ hs.buffers, hkernels ▸ hs.kernels⟩

/-- What is given back is what the solver owned. -/
theorem minds_dropped {d : Device} {s : Solver Parallel Binary32} (h : d.Truthful limits)
    (hhas : s.Has d) : Minds ⟨d, some s⟩ (vacant (s.drop d)) := by
  refine ⟨fun _ hnext => ?_, fun buffers kernels _ hapart => ⟨?_, fun _ hnext => ?_⟩⟩
  · cases hnext
  · exact others_of_spares h (h.drop s) (hapart s rfl) (hhas.owner.release_freed d).spares
  · cases hnext

/-- A solver is made on both devices, or on neither. -/
theorem make_alike {d d' : Device} (h : d.Truthful limits) (h' : d'.Truthful limits)
    (maxRows numCols : Nat) (config : Config Binary32) :
    Alike (fun _ u u' => Tied limits u u' ∧ (vacant d).Minds u) (fun _ _ _ => True)
      (make maxRows numCols config ⟨vacant d, j⟩)
      (make maxRows numCols config ⟨vacant d', j'⟩) := by
  rcases Solver.parallel_cases limits maxRows numCols config with
    ⟨hinput, hlimit, hchunk⟩ | ⟨_, ⟨e, rfl⟩ | rfl, hstops⟩
  · rcases h.parallel_made hinput hlimit hchunk j with
      ⟨s, u, hmake, hdesc, ⟨engine, hs⟩, hinformed⟩
    rcases h'.parallel_made hinput hlimit hchunk j' with
      ⟨s', u', hmake', hdesc', ⟨engine', hs'⟩, hinformed'⟩
    rw [make_eq_made hmake, make_eq_made hmake']
    -- From here on only the width of the workgroups counts.
    generalize (Geometry.ofDevice (Device.ofLimits limits).info config.maxWorkgroupSize).workgroup
      = width at hdesc hdesc'
    have hstage : Solver.Stage (Parallel.reading width) (Parallel.reading width) maxRows numCols
        config (s.attach u.state) (s'.attach u'.state) := by
      subst hs hs'
      exact Solver.stage_fresh rfl rfl hdesc hdesc'
    refine .ok ⟨⟨hinformed.device, hinformed'.device, .some ⟨⟨_, _, _, _, hstage⟩,
      hinformed.info, hinformed'.info⟩⟩, ?_⟩
    exact minds_made h hinformed.device (Solver.owns_of_parallel h.info_eq hmake).1
      ((Solver.parallel_ends d maxRows numCols config).result hmake).2
  · rcases hstops d h j with ⟨_, j₁, hrefused, rfl⟩
    rcases hstops d' h' j' with ⟨_, j₁', hrefused', rfl⟩
    rw [make_eq_refused hrefused, make_eq_refused hrefused']
    exact .ok ⟨⟨h, h', .none⟩, .refl fun _ hs => by cases hs⟩
  · rcases hstops d h j with ⟨_, j₁, hcut, -⟩
    rcases hstops d' h' j' with ⟨_, j₁', hcut', -⟩
    rw [make_eq_overflow hcut, make_eq_overflow hcut']
    exact .error trivial

/-- An operation is answered alike on both devices, or cut off on both. -/
theorem operate_alike {d d' : Device} {s s' : Solver Parallel Binary32} (h : d.Truthful limits)
    (h' : d'.Truthful limits) (hp : Solver.Paired limits d d' s s') (hhas : s.Has d)
    (o : Operation Binary32) :
    Alike (fun _ u u' => Tied limits u u' ∧ Minds ⟨d, some s⟩ u) (fun _ _ _ => True)
      (operate s o ⟨⟨d, some s⟩, j⟩) (operate s' o ⟨⟨d', some s'⟩, j'⟩) := by
  rcases hp.stage with ⟨width, maxRows, numCols, config, hstage⟩
  -- Both solvers may have other numbers, but the boards that they stand at are the same.
  have halike : Alike (fun a u u' => Regular config.maxIterations o a ∧
        Solver.Stage (Parallel.reading width) (Parallel.reading width) maxRows numCols config u u')
      (fun e _ _ => Cut (Parallel.reading width) numCols e)
      (Solver.answer o ⟨s.attach d, j⟩) (Solver.answer o ⟨s'.attach d', j'⟩) :=
    Solver.answer_alike rfl hstage o fun _ _ _ _ _ _ => Solver.sumsMatchAt_self _
  generalize hrun : Solver.answer o ⟨s.attach d, j⟩ = x at halike
  generalize hrun' : Solver.answer o ⟨s'.attach d', j'⟩ = x' at halike
  cases halike with
  | error _ =>
      rw [operate_eq_stop hrun, operate_eq_stop hrun']
      exact .error trivial
  | @ok a u u' hs =>
      rw [operate_eq_answered hrun, operate_eq_answered hrun']
      have hinformed := Solver.Informed.answered (t := ⟨s.attach d, j⟩) ⟨h, hp.left⟩ hrun
      have hinformed' := Solver.Informed.answered (t := ⟨s'.attach d', j'⟩) ⟨h', hp.right⟩ hrun'
      exact .ok ⟨⟨hinformed.device, hinformed'.device, .some ⟨⟨_, _, _, _, hs.2⟩, hinformed.info,
        hinformed'.info⟩⟩, minds_answered h hinformed.device hhas hrun⟩

/-- What one user wants comes to the same on both devices. The replies are equal, and
    neither buffers nor kernels of others were touched. -/
theorem act_alike (h : Tied limits seat seat')
    (hhas : ∀ s, seat.solver? = some s → s.Has seat.device) (x : Action) :
    Alike (fun _ u u' => Tied limits u u' ∧ seat.Minds u) (fun _ _ _ => True)
      (act x ⟨seat, j⟩) (act x ⟨seat', j'⟩) := by
  rcases seat with ⟨d, held⟩
  rcases seat' with ⟨d', held'⟩
  rcases h with ⟨hd, hd', hsolvers⟩
  have hidle : Alike (fun (_ : Reply) u u' => Tied limits u u' ∧ Minds ⟨d, held⟩ u)
      (fun _ _ _ => True) (.ok .idle ⟨⟨d, held⟩, j⟩) (.ok .idle ⟨⟨d', held'⟩, j'⟩) :=
    .ok ⟨⟨hd, hd', hsolvers⟩, .refl hhas⟩
  -- A user without a solver can only make one, and a user with one can only use or drop it.
  -- Everything else is idle on both devices.
  cases hsolvers with
  | none =>
      cases x with
      | make maxRows numCols config =>
          exact make_alike hd hd' maxRows numCols config
      | operate o => exact hidle
      | name => exact hidle
      | drop => exact hidle
  | @some s s' hp =>
      have hs : s.Has d := hhas s rfl
      cases x with
      | make maxRows numCols config => exact hidle
      | operate o => exact operate_alike hd hd' hp hs o
      | name =>
          have hname : s'.workspace.engine.name = s.workspace.engine.name := by
            rw [Parallel.name, Parallel.name, hp.left, hp.right]
          have hnamed : act .name ⟨⟨d', some s'⟩, j'⟩
              = .ok (.named s.workspace.engine.name) ⟨⟨d', some s'⟩, j'⟩ := by
            rw [← hname]
            rfl
          rw [hnamed]
          exact .ok ⟨⟨hd, hd', .some hp⟩, .refl hhas⟩
      | drop => exact .ok ⟨⟨hd.drop s, hd'.drop s', .none⟩, minds_dropped hd hs⟩

end Seat

/-! ### Interleavings -/

namespace Bench

variable {ι : Type} [DecidableEq ι] {limits : Limits} {b : Bench ι} {i : ι} {j : Journal}

theorem solver?_withSeat_same (b : Bench ι) (i : ι) (seat : Seat) :
    (b.withSeat i seat).solver? i = seat.solver? :=
  Function.update_self ..

theorem solver?_withSeat_other {k : ι} (b : Bench ι) (seat : Seat) (hk : k ≠ i) :
    (b.withSeat i seat).solver? k = b.solver? k :=
  Function.update_of_ne hk ..

/-- Each user of the device is where it would be on a device of its own, and the solvers on
    the device own different things. Numbers of buffers and kernels differ between the two,
    as they depend on what the others have done. -/
structure Models (limits : Limits) (b : Bench ι) (alone : ι → Seat) : Prop where
  tied : ∀ i, (b.seat i).Tied limits (alone i)
  has : ∀ i s, b.solver? i = some s → s.Has b.device
  apart : ∀ i k s t, i ≠ k → b.solver? i = some s → b.solver? k = some t →
    s.Apart t.workspace.engine.bufferIds t.workspace.engine.kernelIds

omit [DecidableEq ι] in
theorem models_vacant (host : HostDevice) :
    Models host.limits (vacant (.toHost host) : Bench ι)
      fun _ => .vacant (.ofLimits host.limits) where
  tied _ := ⟨Device.truthful_toHost host, Device.truthful_toHost (.idle host.limits), .none⟩
  has _ _ hs := by cases hs
  apart _ _ _ _ _ hs _ := by cases hs

/-- A step of one user does not move the others. Their solvers are still where they would be
    alone, as their things on the device are untouched. -/
theorem Models.withSeat {alone : ι → Seat} (h : Models limits b alone) {u u' : Seat}
    (htied : u.Tied limits u') (hminds : (b.seat i).Minds u) :
    Models limits (b.withSeat i u) (Function.update alone i u') := by
  -- What a solver owns is held, and apart from what the user at this seat owns.
  have hother : ∀ k s, k ≠ i → b.solver? k = some s →
      HostDevice.Respects s.workspace.engine.bufferIds s.workspace.engine.kernelIds b.device.host
        u.device.host ∧
      ∀ t, u.solver? = some t →
        t.Apart s.workspace.engine.bufferIds s.workspace.engine.kernelIds := fun k s hk hs =>
    hminds.others _ _ (h.has k s hs).holds fun t ht => h.apart i k t s (Ne.symm hk) ht hs
  refine {
    tied := fun k => ?_
    has := fun k s hs => ?_
    apart := fun k l s t hne hs ht => ?_ }
  · by_cases hk : k = i
    · subst hk
      rw [Function.update_self, seat, solver?_withSeat_same]
      exact htied
    · rw [Function.update_of_ne hk, seat, solver?_withSeat_other b u hk]
      exact (h.tied k).onDevice htied.left (h.has k) fun s hs => (hother k s hk hs).1
  · by_cases hk : k = i
    · subst hk
      rw [solver?_withSeat_same] at hs
      exact hminds.has s hs
    · rw [solver?_withSeat_other b u hk] at hs
      exact ⟨(h.has k s hs).owner, (h.has k s hs).holds.respected (hother k s hk hs).1⟩
  · by_cases hk : k = i
    · subst hk
      rw [solver?_withSeat_same] at hs
      rw [solver?_withSeat_other b u (Ne.symm hne)] at ht
      exact (hother l t (Ne.symm hne) ht).2 s hs
    · rw [solver?_withSeat_other b u hk] at hs
      by_cases hl : l = i
      · subst hl
        rw [solver?_withSeat_same] at ht
        exact ((hother k s hk hs).2 t ht).symm
      · rw [solver?_withSeat_other b u hl] at ht
        exact h.apart k l s t hne hs ht

/-- If the users are done, then each was told what it is told alone. If they are not, since
    something does not end or does not fit a word, then it is the same for one of them
    alone. Such a stop ends everything on the shared device, so in this case nothing is said
    of the other users. -/
structure Agrees (events : List (ι × Action)) (alone : ι → Traced Seat)
    (out : Except Stop (List (ι × Reply))) : Prop where
  told : ∀ replies, out = .ok replies → ∀ i,
    Exec.outcome (Seat.run (ofUser i events) (alone i)) = .ok (ofUser i replies)
  cut : ∀ e, out = .error e →
    ∃ i, Exec.outcome (Seat.run (ofUser i events) (alone i)) = .error e

theorem step_eq_ok {x : Action} {r : Reply} {t u : Traced (Bench ι)} (h : act i x t = .ok r u) :
    step (i, x) t = .ok (i, r) u := by
  rw [step, bind_ok h]
  rfl

theorem step_eq_stop {x : Action} {e : Stop} {t u : Traced (Bench ι)}
    (h : act i x t = .error e u) : step (i, x) t = .error e u :=
  bind_error h

theorem Agrees.cons {events : List (ι × Action)} {alone : ι → Traced Seat} {x : Action} {r : Reply}
    {v : Traced Seat} {out : Except Stop (List (ι × Reply))} (hact : Seat.act x (alone i) = .ok r v)
    (h : Agrees events (Function.update alone i v) out) :
    Agrees ((i, x) :: events) alone (out.map ((i, r) :: ·)) := by
  -- Alone, the user of the event goes one step further, and for everybody else nothing has
  -- happened.
  have hrun : ∀ k, Exec.outcome (Seat.run (ofUser k ((i, x) :: events)) (alone k))
      = (Exec.outcome (Seat.run (ofUser k events) (Function.update alone i v k))).map
        fun rs => if k = i then r :: rs else rs := by
    intro k
    by_cases hk : k = i
    · subst hk
      rw [ofUser_cons_same, Function.update_self, Seat.run, outcome_mapM_cons _ hact]
      simp only [if_true, Seat.run]
    · rw [ofUser_cons_other hk, Function.update_of_ne hk]
      simp only [if_neg hk]
      cases Exec.outcome (Seat.run (ofUser k events) (alone k)) <;> rfl
  cases out with
  | ok replies =>
      refine ⟨fun _ hout k => ?_, nofun⟩
      cases hout
      rw [hrun k, h.told replies rfl k]
      by_cases hk : k = i
      · subst hk
        rw [ofUser_cons_same, Except.map, if_pos rfl]
      · rw [ofUser_cons_other hk, Except.map, if_neg hk]
  | error e =>
      refine ⟨nofun, fun _ hout => ?_⟩
      cases hout
      rcases h.cut e rfl with ⟨k, hk⟩
      refine ⟨k, ?_⟩
      rw [hrun k, hk]
      rfl

/-- By induction on the steps. Whoever makes the first one is told the same on the bench and
    alone, and then each user is again where it is alone. -/
theorem run_agrees (events : List (ι × Action)) :
    ∀ {t : Traced (Bench ι)} {alone : ι → Traced Seat},
      Models limits t.state (Traced.state ∘ alone) →
      Agrees events alone (Exec.outcome (run events t)) := by
  induction events with
  | nil =>
      refine fun _ => ⟨fun _ hout _ => ?_, nofun⟩
      cases hout
      rfl
  | cons event rest ih =>
      intro t alone h
      rcases event with ⟨i, x⟩
      -- The step is compared with the same step alone. What the bench adds is that the other
      -- users are left in peace, which `Minds` says.
      have hstep : Alike (fun _ u u' => u.Tied limits u' ∧ (t.state.seat i).Minds u)
          (fun _ _ _ => True) (Seat.act x ⟨t.state.seat i, t.journal⟩) (Seat.act x (alone i)) :=
        Seat.act_alike (h.tied i) (h.has i) x
      generalize hrun : Seat.act x ⟨t.state.seat i, t.journal⟩ = out at hstep
      generalize hrun' : Seat.act x (alone i) = out' at hstep
      cases hstep with
      | error _ =>
          rw [run, outcome_mapM_stop rest (step_eq_stop (focus_error hrun))]
          refine ⟨nofun, fun _ hout => ⟨i, ?_⟩⟩
          cases hout
          rw [ofUser_cons_same]
          exact outcome_mapM_stop _ hrun'
      | @ok r u u' hs =>
          rw [run, outcome_mapM_cons rest (step_eq_ok (focus_ok hrun))]
          refine Agrees.cons hrun' (ih ?_)
          have hnext := h.withSeat hs.1 hs.2
          rw [← Function.comp_update] at hnext
          exact hnext

/-- Solvers that share a device do not interfere. Whatever the users do with solvers of their
    own, and in whatever order, each is told what it would be told on a device of its own with
    the same limits; and if what one of them wants does not end, or stops at a number that does
    not fit a word, then it does so alone as well. -/
theorem outcome_run_as_alone (host : HostDevice) (events : List (ι × Action)) (j j' : Journal) :
    Agrees events (fun _ => ⟨.vacant (.ofLimits host.limits), j'⟩)
      (Exec.outcome (run events ⟨.vacant (.toHost host), j⟩)) :=
  run_agrees events (models_vacant host)

/-- Two users take turns. One of them has a search that makes an exchange, and the other one
    drops its solver in between. -/
def turns : List (Bool × Action) :=
  [(true, .make 1 2 Config.standard), (false, .make 2 1 Config.standard)] ++
  raisingCalls.map (fun c => (true, .operate (.build c))) ++
  [(false, .operate (.build (.constraint #[⟨0x40400000⟩]))), (true, .operate (.solve 2)),
    (false, .operate (.solve 2)), (false, .drop), (true, .operate .solution),
    (true, .operate (.entry 0 1)), (false, .name), (true, .name)]

/-- Both are told what they are told alone. -/
theorem outcome_run_as_alone_turns :
    ∃ replies u, run turns ⟨.vacant (.ofLimits ⟨4, 1⟩), #[]⟩ = .ok replies u ∧
      (u.state.solver? true).map (·.history) = some #[⟨0, 2, 0⟩] ∧
      (u.state.solver? false).isNone ∧
      ∀ i, Exec.outcome (Seat.run (ofUser i turns) ⟨.vacant (.ofLimits ⟨4, 1⟩), #[]⟩)
        = .ok (ofUser i replies) := by
  have hrun : Exec.endsWith (run turns ⟨.vacant (.ofLimits ⟨4, 1⟩), #[]⟩) (fun _ u =>
      decide ((u.state.solver? true).map (·.history) = some #[⟨0, 2, 0⟩]) &&
        (u.state.solver? false).isNone) = true := by decide +kernel
  rcases Exec.exists_of_endsWith hrun with ⟨replies, u, hended, htest⟩
  rw [Bool.and_eq_true, decide_eq_true_eq] at htest
  refine ⟨replies, u, hended, htest.1, htest.2, fun i => ?_⟩
  exact (outcome_run_as_alone (.idle ⟨4, 1⟩) turns #[] #[]).told replies
    (congrArg Exec.outcome hended) i

end Bench

end BoundedSimplex
