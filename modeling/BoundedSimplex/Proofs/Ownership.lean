import BoundedSimplex.Proofs.Calm
import BoundedSimplex.Proofs.Footprint
import BoundedSimplex.Proofs.Frozen

/-!
# What an Engine Owns

The buffers and kernels of a solver, from when it is made to when it is dropped.

A solver on a shared device owns what was handed out while it was made. Until it is
dropped it has all of that and no more, whatever a caller does with it, however its
operations end, and whatever other users do with the rest of the device. When it
is dropped exactly that is gone.

That a buffer is never lost rests on the searches. A launch that meets an index
outside a table would leave its output detached, so it has to be known that no
launch of a search does. It is known if the device held a system when the search
began. So that is an invariant of the time before the search: `Parallel.Awaits`
says that the device, if it refused nothing, would be ready for some system. Not
always for the one that was asked for, since a change of bounds may be refused
halfway; but a bound is three words, and whatever they are they are bounds.

## Main definitions

* `Parallel.SameOn`: Devices that are the same to an engine.
* `Parallel.Awaits`: The device holds a system.
* `HostDevice.Respects`: What other users of the device leave as it was.
* `Solver.Used`: What may happen to a solver before it is dropped.
* `Solver.Tidy`: A solver that has what it owns, and gives back exactly that.

## Theorems

* `Parallel.maintains_awaits`: Bounds that are changed halfway are bounds.
* `Solver.Awaiting.answer`: The device holds a system until the search.
* `Solver.Owns.of_used`: The invariant of a solver that is used.
* `tidy_of_used`: What a solver owns is there until it is dropped, and gone then.
-/

namespace BoundedSimplex

open Exec

/-! ### Bounds -/

namespace BoundView

variable {view : BoundView} {v : Nat}

theorem exists_side {values bounded : Words} (hvalues : v < values.size)
    (hbounded : v < bounded.size) (bit : UInt32) : ∃ x, side? values bounded bit v = some x := by
  unfold side?
  rw [Array.getElem?_eq_getElem hbounded]
  simp only [Option.bind_eq_bind, Option.bind_some]
  split
  · exact ⟨none, rfl⟩
  · rw [Words.number?, Array.getElem?_eq_getElem hvalues]
    exact ⟨_, rfl⟩

/-- Whatever the words of a variable are, they are bounds. -/
theorem exists_interval (hlower : v < view.lower.size) (hupper : v < view.upper.size)
    (hbounded : v < view.bounded.size) : ∃ i, view.interval? v = some i := by
  rcases exists_side hlower hbounded hasLower with ⟨lower, hl⟩
  rcases exists_side hupper hbounded hasUpper with ⟨upper, hu⟩
  exact ⟨⟨lower, upper⟩, interval?_eq_some_iff.mpr ⟨hl, hu⟩⟩

end BoundView

/-- The buffers that hold bounds. -/
def Slot.HoldsBounds (s : Slot) : Prop := s = .lower ∨ s = .upper ∨ s = .bounded

/-- If other words are written to a buffer of bounds the device holds other bounds. -/
theorem Contents.Variables.setBounds {c : Contents} {b : Board Binary32} (h : c.Variables b)
    {s : Slot} (hs : s.HoldsBounds) {ws : Words} (hsize : ws.size = (c s).size) :
    ∃ i, (c.set s ws).Variables { b with interval := i } := by
  have hsizes : ∀ t, (c.set s ws t).size = (c t).size := by
    intro t
    by_cases ht : t = s
    · rw [ht, Contents.set_same, hsize]
    · rw [Contents.set_other ht]
  have hother : ∀ t, ¬ t.HoldsBounds → c.set s ws t = c t := fun t ht =>
    Contents.set_other fun heq => ht (heq ▸ hs)
  -- The three buffers are read again, and what they say now are the bounds.
  let view : BoundView := ⟨c.set s ws .lower, c.set s ws .upper, c.set s ws .bounded⟩
  have hlower : b.numVars ≤ view.lower.size := (hsizes .lower).symm ▸ h.bounds.lower_size
  have hupper : b.numVars ≤ view.upper.size := (hsizes .upper).symm ▸ h.bounds.upper_size
  have hread : ∀ v < b.numVars,
      view.interval? v = some ((view.interval? v).getD ⟨none, none⟩) := by
    intro v hv
    rcases BoundView.exists_mask (h.bounds.interval v hv) with ⟨mask, hmask⟩
    rcases Array.getElem?_eq_some_iff.mp hmask with ⟨hlt, -⟩
    have hbounded : v < view.bounded.size := (hsizes .bounded).symm ▸ hlt
    rcases BoundView.exists_interval (Nat.lt_of_lt_of_le hv hlower) (Nat.lt_of_lt_of_le hv hupper)
      hbounded with ⟨i, hi⟩
    rw [hi]
    rfl
  refine ⟨fun v => (view.interval? v).getD ⟨none, none⟩, ⟨hread, hlower, hupper⟩, ?_, ?_⟩
  · rw [hother .values (by rintro (h | h | h) <;> cases h)]
    exact h.values
  · rw [hother .flags (by rintro (h | h | h) <;> cases h)]
    exact h.flags

namespace Parallel

/-! ### Before the search -/

variable {w : Desk} {width : Nat} {b : Board Binary32} {host : HostDevice}

/-- What the engine has on one device it has on the other, which refuses nothing. Whatever
    else is on the two may be entirely different. -/
structure SameOn (p : Parallel) (d d' : Device) : Prop where
  refuse : d'.refuse = none
  words : ∀ s, d'.host.memory.words? (p.slot s).id = d.host.memory.words? (p.slot s).id
  kernels : ∀ e, (d'.host.kernels[p.kernel e]?).join = (d.host.kernels[p.kernel e]?).join
  limits : d'.host.limits = d.host.limits

/-- Only what the engine owns counts, and the limits of the device. -/
theorem Sees.onDevice {p : Parallel} {d d' : Device} {a : Wiring} {c : Contents} (h : p.Sees d a c)
    (hd : p.SameOn d d') : p.Sees d' a c := by
  refine ⟨hd.refuse, fun e => ?_, fun s => ?_, h.inj, h.length, ?_⟩
  · exact (hd.kernels e).trans (h.kernel e)
  · exact (hd.words s).trans (h.words s)
  · exact Nat.le_trans h.limit (Nat.le_of_eq (congrArg Limits.maxWorkgroupSize hd.limits).symm)

theorem Ready.onDevice (h : Ready width w b) {d : Device}
    (hd : w.engine.handle.SameOn w.engine.device d) : Ready width (w.withDevice d) b := by
  rcases h.holds with ⟨a, c, hs, hvars⟩
  exact ⟨h.tableau, h.basis, h.fits, h.prepared, a, c, hs.onDevice hd, hvars⟩

theorem Shows.onDevice (h : Shows width w b) {d : Device}
    (hd : w.engine.handle.SameOn w.engine.device d) : Shows width (w.withDevice d) b := by
  rcases h.stands with ⟨hfits, hrows, hprepared, a, c, hs, hholds⟩
  exact ⟨h.sized, h.basis, hfits, hrows, hprepared, a, c, hs.onDevice hd, hholds⟩

/-- On a device like this, and one that refuses nothing, the engine would be ready to
    search some system. -/
def Awaits (w : Desk) (host : HostDevice) : Prop :=
  ∃ (width : Nat) (p : Problem Binary32) (tolerance : Binary32), p.rows.length ≤ p.maxRows ∧
    Ready width (w.withDevice (.toHost host)) (p.board tolerance)

/-- Words of a buffer of bounds are replaced, or the transfer is refused. -/
theorem Awaits.write_ends (h : Awaits w host) {s : Slot} (hs : s.HoldsBounds) (offset : Nat)
    (data : Words) :
    (HostDevice.write (w.engine.handle.slot s).id offset data).Ends host (fun _ => Awaits w)
      fun _ => Awaits w := by
  refine Exec.Yields.state.ends ?_
  cases hwrite : host.memory.write (w.engine.handle.slot s).id offset data with
  | error e => exact (Exec.Stops.check rfl h).bind.ends
  | ok m =>
      refine (Exec.Yields.check rfl).ends (Exec.Gives.ends (Exec.Gives.update ?_))
      rcases Memory.write_eq_ok hwrite with ⟨old, ws, hold, hsize, rfl⟩
      rcases h with ⟨width, p, tolerance, hlength, hready⟩
      rcases hready.holds with ⟨a, c, hsees, hvars⟩
      -- The rows are those of the same problem, with whatever bounds these are.
      have hsame : old = c s := Option.some.inj (hold.symm.trans (hsees.words s))
      rw [hsame] at hsize
      rcases hvars.setBounds hs hsize with ⟨i, hvars'⟩
      have hlen : (w.engine.handle.slot s).length ≤ ws.size := by
        rw [hsize]
        exact hsees.length s
      have htableau := hready.tableau
      exact ⟨width, { p with bounds := i }, tolerance, hlength,
        ⟨htableau.maxRows, htableau.numRows, htableau.numCols, htableau.coeff⟩, hready.basis,
        hready.fits.of_eq rfl rfl rfl, hready.prepared, a, _,
        hsees.store s (Device.serves_toHost _) hlen, hvars'⟩

/-- What only reads and changes bounds. -/
def editing : Right → Prop
  | .write s => s.HoldsBounds
  | _ => False

/-- Bounds that are changed, and be it halfway, leave a system on the device. To be searched
    it needs no more than words in all the places. -/
theorem maintains_awaits {α : Type} {act : Exec Desk α} (h : Composed (Moves editing) act) :
    act.Maintains (fun w => Awaits w w.engine.device.host)
      fun _ w => Awaits w w.engine.device.host := by
  refine maintains_of_moves (fun w γ act hact => ?_) nofun nofun (fun _ _ hw => hw) h
  have hask : ∀ r, (Device.ask r).Maintains (fun d => Awaits w d.host) fun _ d => Awaits w d.host :=
    ask_maintains fun _ _ hd => hd
  have hmaintains : act.Maintains (fun d => Awaits w d.host) fun _ d => Awaits w d.host := by
    -- The rights of an edit allow neither binding nor launching.
    cases hact with
    | setArg _ _ _ hrun _ => cases hrun
    | launch _ _ hrun => cases hrun
    | look hlook _ => cases hlook
    | write s offset data hs =>
        exact (hask _).bind fun _ => (onHost_maintains fun host hd =>
          hd.write_ends hs offset data).bind fun _ => .update fun _ hd => hd
    | read s offset count =>
        refine (hask _).bind fun _ => (onHost_maintains fun host hd =>
          Exec.Yields.state.ends ?_).bind fun _ => Maintains.bind (.update fun _ hd => hd) fun _ =>
            .pure _
        cases host.memory.read (w.engine.handle.slot s).id offset count with
        | error e => exact (Exec.Stops.check rfl hd).ends
        | ok ws => exact Exec.Gives.ends (Exec.Gives.check rfl hd)
  exact hmaintains

end Parallel

namespace Solver

/-- As long as the solver was not told to search, its device holds a system. -/
def Awaiting (s : Solver (Attached Parallel) Binary32) : Prop :=
  s.phase = .building → Parallel.Awaits s.workspace s.device.host

section Operations

variable {o : Operation Binary32} {a : Except Error (Answer Binary32)} {fuel : Nat}
  {t u : Traced (Solver (Attached Parallel) Binary32)}

/-- An operation that only reads and changes bounds. -/
theorem Awaiting.of_moves {α : Type} {act : Exec (Solver (Attached Parallel) Binary32) α}
    (h : Composed (Moves Parallel.editing) act) (ht : Awaiting t.state) :
    Awaiting (Exec.final (act t)).state := by
  intro hphase
  have hkept := (maintains_phase t.state.phase h t.state rfl).final
  exact Exec.Ends.final (maintains_of_moves Parallel.maintains_awaits (fun _ _ hw => hw) h t.state
    (ht (hkept.symm.trans hphase)))

/-- Only a solver that was not told to search goes on. -/
theorem ensureBuilding_ends {s : Solver (Attached Parallel) Binary32} (hs : Awaiting s) :
    (ensureBuilding : Exec (Solver (Attached Parallel) Binary32) Unit).Ends s
      (fun _ s' => s'.phase = .building ∧ Awaiting s') fun _ => Awaiting := by
  refine Exec.Yields.state.ends ?_
  cases hphase : s.phase with
  | building => exact .pure ⟨hphase, hs⟩
  | sat | unsat | aborted => exact .fail hs

theorem Awaiting.constraint (coeffs : Array Binary32) (ht : Awaiting t.state) :
    Awaiting (Exec.final (call (.constraint coeffs) t)).state := by
  refine Exec.Ends.final (Exec.Ends.bind (ensureBuilding_ends ht) ?_)
  rintro _ s ⟨hphase, hs⟩
  rcases hs hphase with ⟨width, p, tolerance, hlength, hready⟩
  refine Exec.Yields.state.ends ?_
  rcases addRow_cases (Parallel.builds width) hready coeffs with ⟨x, hadd, hx⟩ | ⟨e, hadd, -⟩
  · refine (Exec.Yields.check hadd).ends (Exec.Yields.update.ends (Exec.Gives.ends
      (Exec.Gives.emit fun _ => ?_)))
    exact ⟨width, p.call (.constraint coeffs), tolerance, Problem.length_rows_call hlength _, hx⟩
  · exact Exec.Stops.ends (Exec.Stops.bind (Exec.Stops.check hadd hs))

/-- Until the search the device holds a system, and after the search nobody needs one any
    more. -/
theorem Awaiting.answer (ht : Awaiting t.state) (h : answer o t = .ok a u) : Awaiting u.state := by
  -- A search may leave anything in the buffers, but it is answered once.
  by_cases hsearch : ∃ fuel, o = .solve fuel
  · rcases hsearch with ⟨fuel, rfl⟩
    exact fun hphase => absurd hphase (phase_of_solve h)
  rw [← final_of_answer h]
  by_cases hbuild : ∃ c, o = .build c
  · rcases hbuild with ⟨c, rfl⟩
    rw [final_perform_build]
    cases c with
    | constraint coeffs => exact ht.constraint coeffs
    | bounds v e =>
        exact ht.of_moves (edit_moves (R := Parallel.editing) v e (.inl rfl) (.inr (.inl rfl))
          (.inr (.inr rfl)))
  · exact ht.of_moves (asked_moves (fun c hc => hbuild ⟨c, hc⟩) fun fuel hf => hsearch ⟨fuel, hf⟩)

/-- So a search meets no index outside a table. -/
theorem Awaiting.solve_ne_outOfRange (ht : Awaiting t.state) :
    solve fuel t ≠ .error .outOfRange u := by
  by_cases hphase : t.state.phase = .building
  · rcases ht hphase with ⟨width, p, tolerance, hlength, hready⟩
    exact Solver.solve_ne_outOfRange (Problem.valid_board hlength tolerance)
      (hready.onDevice (d := t.state.device.calm) ⟨rfl, fun _ => rfl, fun _ => rfl, rfl⟩) hphase
      fuel
  · rcases solve_frozen hphase fuel with ⟨_, hsolve⟩ | ⟨_, hsolve⟩ <;> rw [hsolve] <;> nofun

end Operations

end Solver

/-! ### From when it is made to when it is dropped -/

/-- What another user of the device leaves as it was: these buffers and kernels, and the
    limits of the device. Everything else may change, including the number the next buffer
    will have. -/
structure HostDevice.Respects (buffers kernels : List Nat) (h h' : HostDevice) : Prop where
  words : ∀ id ∈ buffers, h'.memory.words? id = h.memory.words? id
  kernels : ∀ id ∈ kernels, (h'.kernels[id]?).join = (h.kernels[id]?).join
  limits : h'.limits = h.limits

/-- Another user may give back a buffer of its own. -/
theorem HostDevice.Respects.release {buffers kernels : List Nat} {h : HostDevice} {id : Nat}
    (hid : id ∉ buffers) : Respects buffers kernels h (h.release id) := by
  refine ⟨fun other hother => ?_, fun _ _ => rfl, rfl⟩
  refine (Memory.words?_release h.memory id other).trans (if_neg ?_)
  exact fun heq => hid (heq ▸ hother)

theorem HostDevice.Holds.respected {buffers kernels : List Nat} {h h' : HostDevice}
    (hh : Holds buffers kernels h) (hr : Respects buffers kernels h h') :
    Holds buffers kernels h' := by
  refine ⟨fun id hid => ?_, fun id hid => ?_⟩
  · rw [hr.words id hid]
    exact hh.live id hid
  · rw [hr.kernels id hid]
    exact hh.bound id hid

namespace Parallel

variable {buffers kernels : List Nat} {p : Parallel}

theorem Awaits.respected {w : Desk} {h h' : HostDevice}
    (hp : w.engine.handle.Owner buffers kernels) (hw : Awaits w h)
    (hr : HostDevice.Respects buffers kernels h h') : Awaits w h' := by
  rcases hw with ⟨width, p, tolerance, hlength, hready⟩
  exact ⟨width, p, tolerance, hlength, hready.onDevice (d := .toHost h')
    ⟨rfl, fun s => hr.words _ (hp.slot_mem s), fun e => hr.kernels _ (hp.kernel_mem e), hr.limits⟩⟩

/-- Every buffer that belongs to an engine has a use, and every kernel. -/
theorem Owner.exists_slot (hp : p.Owner buffers kernels) {id : Nat} (hid : id ∈ buffers) :
    ∃ s, (p.slot s).id = id := by
  rw [← hp.buffers] at hid
  rcases List.mem_map.mp hid with ⟨s, -, hs⟩
  exact ⟨s, hs⟩

theorem Owner.exists_entry (hp : p.Owner buffers kernels) {id : Nat} (hid : id ∈ kernels) :
    ∃ e, p.kernel e = id := by
  rw [← hp.kernels] at hid
  rcases List.mem_map.mp (List.mem_reverse.mp hid) with ⟨q, hq, rfl⟩
  exact ⟨q.1, hp.kernel_of_mem hq⟩

/-- A new engine has all that it owns, and its kernels are bound to nothing. -/
theorem Owner.holds (hp : p.Owner buffers kernels) {d : Device} {c : Contents}
    (h : p.Sees d .unbound c) : HostDevice.Holds buffers kernels d.host := by
  refine ⟨fun id hid => ?_, fun id hid => ?_⟩
  · rcases hp.exists_slot hid with ⟨s, rfl⟩
    rw [h.words s]
    rfl
  · rcases hp.exists_entry hid with ⟨e, rfl⟩
    refine ⟨_, h.kernel e, ?_, fun i id hi => ?_⟩
    · rw [Wiring.kernel, Array.size_map, Array.size_range]
    · rw [Wiring.kernel, Array.getElem?_map] at hi
      cases hat : (Array.range e.arity)[i]? <;> rw [hat] at hi <;> cases hi

end Parallel

namespace Solver

/-- What may happen to a solver before it is dropped: it is told to do something, and
    answers, and other users of its device do what they like with the rest of it. An answer
    may be an error, so a search that was aborted is among the uses. -/
inductive Used (buffers kernels : List Nat) (t : Traced (Solver (Attached Parallel) Binary32)) :
    Traced (Solver (Attached Parallel) Binary32) → Prop where
  | made : Used buffers kernels t t
  | answered {o : Operation Binary32} {a : Except Error (Answer Binary32)}
      {u v : Traced (Solver (Attached Parallel) Binary32)} :
      Used buffers kernels t u → answer o u = .ok a v → Used buffers kernels t v
  | shared {u : Traced (Solver (Attached Parallel) Binary32)} {d : Device} :
      Used buffers kernels t u → HostDevice.Respects buffers kernels u.state.device.host d.host →
      Used buffers kernels t ⟨u.state.withDevice d, u.journal⟩

/-- The solver has these buffers and kernels, and dropping it gives them back and nothing
    else. What it gives back was not lost on the way, nor given back before. -/
structure Tidy (buffers kernels : List Nat) (s : Solver (Attached Parallel) Binary32) : Prop where
  holds : HostDevice.Holds buffers kernels s.device.host
  freed : HostDevice.Freed buffers kernels s.device.host (s.detach.drop s.device).host

/-- The solver owns these buffers and kernels and has them. -/
structure Owns (buffers kernels : List Nat) (s : Solver (Attached Parallel) Binary32) : Prop where
  owner : s.workspace.engine.handle.Owner buffers kernels
  holds : HostDevice.Holds buffers kernels s.device.host

section Life

variable {buffers kernels : List Nat} {t u v : Traced (Solver (Attached Parallel) Binary32)}
  {s : Solver (Attached Parallel) Binary32}

/-- Operations one after the other. -/
theorem Used.session {ops : List (Operation Binary32)} :
    ∀ {u : Traced (Solver (Attached Parallel) Binary32)}
      {answers : List (Except Error (Answer Binary32))}, Used buffers kernels t u →
        session ops u = .ok answers v → Used buffers kernels t v := by
  induction ops with
  | nil =>
      intro u answers hused h
      cases h
      exact hused
  | cons o rest ih =>
      intro u answers hused h
      rcases session_cons h with ⟨a, w, as, hanswer, hsession, -⟩
      exact ih (hused.answered hanswer) hsession

theorem Owns.tidy (h : Owns buffers kernels s) : Tidy buffers kernels s :=
  ⟨h.holds, h.owner.release_freed s.device⟩

/-- A solver keeps what it owns and leaves the rest alone, unless a search meets an index
    outside a table. -/
theorem Owns.tended {o : Operation Binary32} (ht : Owns buffers kernels t.state)
    (hsolve : ∀ fuel u, o = .solve fuel → solve fuel t ≠ .error .outOfRange u) :
    Owns buffers kernels (Exec.final (Solver.perform o t)).state ∧
      HostDevice.Spares buffers kernels t.state.device.host
        (Exec.final (Solver.perform o t)).state.device.host := by
  have htended : Parallel.Tended buffers kernels t.state.device.host t.state.workspace :=
    ⟨ht.owner, ht.holds, .refl _⟩
  have hleft := perform_tended htended hsolve
  exact ⟨⟨hleft.owner, hleft.device.holds⟩, hleft.device.spares⟩

/-- If it holds a system until the search, then no search does. -/
theorem Owns.perform (ht : Owns buffers kernels t.state) (hawaiting : Awaiting t.state)
    (o : Operation Binary32) : Owns buffers kernels (Exec.final (perform o t)).state ∧
      HostDevice.Spares buffers kernels t.state.device.host
        (Exec.final (perform o t)).state.device.host :=
  ht.tended fun _ _ _ => hawaiting.solve_ne_outOfRange

/-- Nor does a search that was answered. -/
theorem Owns.answered {o : Operation Binary32} {a : Except Error (Answer Binary32)}
    (ht : Owns buffers kernels t.state) (h : answer o t = .ok a u) :
    Owns buffers kernels u.state ∧
      HostDevice.Spares buffers kernels t.state.device.host u.state.device.host := by
  rw [← final_of_answer h]
  refine ht.tended fun fuel v ho hsolve => ?_
  subst ho
  rcases ended_of_answer h with ⟨_, hended⟩ | ⟨_, hended⟩
  · cases hended.symm.trans hsolve
  · cases hended.symm.trans hsolve

/-- This is so until it is dropped. An answer keeps it, and what other users may do to the
    device is what keeps it too. -/
theorem Owns.of_used (h : Used buffers kernels t v) (ht : Owns buffers kernels t.state)
    (hawaiting : Awaiting t.state) : Owns buffers kernels v.state ∧ Awaiting v.state := by
  induction h with
  | made => exact ⟨ht, hawaiting⟩
  | answered _ hanswer ih =>
      refine ⟨?_, ih.2.answer hanswer⟩
      rw [← final_of_answer hanswer]
      exact (ih.1.perform ih.2 _).1
  | shared _ hrespects ih =>
      refine ⟨⟨ih.1.owner, ih.1.holds.respected hrespects⟩, fun hphase => ?_⟩
      exact (ih.2 hphase).respected ih.1.owner hrespects

end Life

end Solver

section Made

variable {maxRows numCols : Nat} {config : Config Binary32} {d : Device} {j : Journal}
  {s : Solver Parallel Binary32} {u : Traced Device}

/-- A new solver owns what was handed out while it was made, and its device holds
    a system, that without constraints. -/
theorem Solver.owns_of_parallel (hinfo : d.info = d.host.info)
    (hmake : parallel maxRows numCols config ⟨d, j⟩ = .ok s u) :
    Owns s.workspace.engine.bufferIds s.workspace.engine.kernelIds (s.attach u.state) ∧
      Awaiting (s.attach u.state) := by
  rcases (parallel_ends d maxRows numCols config).result hmake with ⟨hentries, -⟩
  rcases Parallel.input_of_parallel hmake with ⟨hinput, hlimit, hchunk⟩
  rw [hinfo] at hlimit hchunk
  -- What is known of a solver that is made without the refusal is known of this one,
  -- since the device refused nothing while it was made.
  have hcalm := Device.parallel_calm hmake
  have hgives := Parallel.parallel_gives (d := d.calm) hinput ⟨rfl, rfl⟩ hinfo hlimit hchunk
  rcases hgives.result hcalm with ⟨-, hdesc, ⟨c, hsees⟩, -⟩
  have howner : s.workspace.engine.Owner s.workspace.engine.bufferIds
      s.workspace.engine.kernelIds := ⟨rfl, rfl, hentries⟩
  refine ⟨⟨howner, howner.holds (d := u.state.calm) hsees⟩, fun _ => ?_⟩
  exact ⟨_, .blank maxRows numCols, _, Nat.zero_le _, hdesc.ready.onDevice
    (d := .toHost u.state.host) ⟨rfl, fun _ => rfl, fun _ => rfl, rfl⟩⟩

/-- A solver owns exactly the buffers and kernels that the device handed out while
    the solver was made. Whatever happens to it then, they are there until it is
    dropped, and then they are gone; and neither its operations nor its end touch
    anything else on the device. -/
theorem tidy_of_used (hinfo : d.info = d.host.info)
    (hmake : Solver.parallel maxRows numCols config ⟨d, j⟩ = .ok s u) :
    ∃ buffers kernels, d.Gained u.state buffers kernels ∧
      ∀ v, Solver.Used buffers kernels ⟨s.attach u.state, u.journal⟩ v →
        Solver.Tidy buffers kernels v.state ∧
        ∀ o : Operation Binary32,
          Solver.Tidy buffers kernels (Exec.final (Solver.perform o v)).state ∧
          HostDevice.Spares buffers kernels v.state.device.host
            (Exec.final (Solver.perform o v)).state.device.host := by
  rcases Solver.owns_of_parallel hinfo hmake with ⟨howns, hawaiting⟩
  refine ⟨_, _, ((Solver.parallel_ends d maxRows numCols config).result hmake).2,
    fun v hused => ?_⟩
  -- What is owned stays owned as long as the solver is used, whichever operations are made and
  -- however they end.
  rcases howns.of_used hused hawaiting with ⟨howns', hawaiting'⟩
  refine ⟨howns'.tidy, fun o => ?_⟩
  rcases howns'.perform hawaiting' o with ⟨hleft, hspares⟩
  exact ⟨hleft.tidy, hspares⟩

end Made

/-- A device on which another user has a buffer and a kernel. It refuses the seventh
    launch. -/
def Device.shared : Device :=
  { toHost ⟨⟨4, 1⟩, ⟨#[none, some #[7]]⟩, #[some (.fresh .checkBounds)]⟩ with
    refuse := some (.injected .launch 6) }

/-- Between the calls and the search the other user gives its buffer back, and the
    search is aborted by the refusal. -/
theorem tidy_of_used_aborted : Device.shared.info = Device.shared.host.info ∧
    ∃ s u, Solver.parallel 1 2 Config.standard ⟨.shared, #[]⟩ = .ok s u ∧
      ∃ buffers kernels, Device.shared.Gained u.state buffers kernels ∧
        ∃ v, Solver.Used buffers kernels ⟨s.attach u.state, u.journal⟩ v ∧
          v.state.phase = .aborted ∧ Solver.Tidy buffers kernels v.state ∧
          ∀ o : Operation Binary32,
            Solver.Tidy buffers kernels (Exec.final (Solver.perform o v)).state ∧
            HostDevice.Spares buffers kernels v.state.device.host
              (Exec.final (Solver.perform o v)).state.device.host := by
  have hrun : Exec.endsWith (Solver.parallel 1 2 Config.standard ⟨.shared, #[]⟩) (fun s u =>
      Exec.endsWith (Solver.session (raisingCalls.map .build) ⟨s.attach u.state, u.journal⟩)
        fun _ t => Exec.endsWith
          (Solver.answer (.solve 2) ⟨t.state.withDevice (t.state.device.release 1), t.journal⟩)
          fun _ v => decide (v.state.phase = .aborted)) = true := by decide +kernel
  rcases Exec.exists_of_endsWith hrun with ⟨s, u, hmake, hcalls⟩
  rcases Exec.exists_of_endsWith hcalls with ⟨_, t, hsession, hsearch⟩
  rcases Exec.exists_of_endsWith hsearch with ⟨_, v, hanswer, hphase⟩
  rcases tidy_of_used rfl hmake with ⟨buffers, kernels, hgained, hkept⟩
  -- What is handed out is new, so it is not the buffer of the other user.
  have hforeign : 1 ∉ buffers := fun hid => absurd (hgained.buffers.taken 1 hid).1 (by decide)
  have hused : Solver.Used buffers kernels ⟨s.attach u.state, u.journal⟩ v :=
    .answered (.shared (.session .made hsession) (.release hforeign)) hanswer
  exact ⟨rfl, s, u, hmake, buffers, kernels, hgained, v, hused, of_decide_eq_true hphase,
    hkept v hused⟩

end BoundedSimplex
