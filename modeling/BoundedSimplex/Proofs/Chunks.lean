import BoundedSimplex.Proofs.Bookkeeping

/-!
# Chunks

Two devices that add up in groups of one width answer alike, however many
variables a launch of a scan covers.

A scan goes through the variables in chunks and stops at the first chunk in
which it finds one. How long a chunk is depends on the number of compute units,
and so do the number of launches and the places where one ends and the next one
begins. None of this reaches a caller: what a scan finds is the lowest variable
on the board, and a board knows of no chunks. The width of the workgroups is the
only part of the geometry that a board shows, since the sums of its rows are made
by workgroups. So two searches with one width follow the same boards.

Nothing has to be assumed of the width. Where a sum by workgroups does not end
it ends on neither device, and a row whose items do not fit a word fits it on neither.
A chunk has to fit a word on each of them, since it is a product with the units.

## Theorems

* `Parallel.outcome_serve_of_workgroup`: Devices with one width answer alike.
-/

namespace BoundedSimplex

namespace Parallel

/-- Two devices on which the workgroups have one width answer every session alike. Their
    compute units and the largest workgroups they could run may differ, and so may whatever
    else is on them. Units decide only how many launches a scan takes, and a scan finds the
    lowest variable in any case. -/
theorem outcome_serve_of_workgroup (maxRows numCols : Nat) (config : Config Binary32)
    (host host' : HostDevice) (ops : List (Operation Binary32)) (j j' : Journal)
    (hlimit : host.info.maxWorkgroupSize ≠ 0) (hlimit' : host'.info.maxWorkgroupSize ≠ 0)
    (hchunk : (Geometry.ofDevice host.info config.maxWorkgroupSize).chunk < UInt32.size)
    (hchunk' : (Geometry.ofDevice host'.info config.maxWorkgroupSize).chunk < UInt32.size)
    (hwidth : (Geometry.ofDevice host'.info config.maxWorkgroupSize).workgroup
      = (Geometry.ofDevice host.info config.maxWorkgroupSize).workgroup) :
    Exec.outcome (serve maxRows numCols config ops ⟨.toHost host', j'⟩)
      = Exec.outcome (serve maxRows numCols config ops ⟨.toHost host, j⟩) := by
  -- What is wrong with the input is found before a device is asked for anything.
  cases hinput : Solver.checkInput maxRows numCols config with
  | error e =>
      let t : Traced Unit := ⟨(), #[]⟩
      rw [(outcome_serve_of_error t ⟨.toHost host', j'⟩ hinput).2,
        (outcome_serve_of_error t ⟨.toHost host, j⟩ hinput).2]
  | ok _ =>
      rcases outcome_serve ops j hinput hlimit hchunk with
        ⟨s, d, i, hgeometry, hdesc, ⟨engine, hs⟩, hserve⟩
      rcases outcome_serve ops j' hinput hlimit' hchunk' with
        ⟨s', d', i', hgeometry', hdesc', ⟨engine', hs'⟩, hserve'⟩
      rw [hgeometry] at hdesc
      rw [hgeometry', hwidth] at hdesc'
      -- Only the width is left of the two geometries.
      generalize (Geometry.ofDevice host.info config.maxWorkgroupSize).workgroup = width
        at hdesc hdesc'
      -- Both engines show the blank board at that width. From there on they are twins, and their
      -- chunks never enter.
      have hstage : Solver.Stage (reading width) (reading width) maxRows numCols config
          (s.attach d) (s'.attach d') := by
        subst hs hs'
        exact Solver.stage_fresh rfl rfl hdesc hdesc'
      rw [hserve, hserve']
      exact (Solver.session_alike rfl ops hstage fun _ _ _ =>
        Solver.sumsMatchAt_self _).outcome_eq.symm

/-- A session in which the broken variable is the last one of five: the third
    row has to be at least three. -/
def lastRowSession : List (Operation Binary32) :=
  [.build (.constraint #[⟨0x3f800000⟩, ⟨0⟩]), .build (.constraint #[⟨0⟩, ⟨0x3f800000⟩]),
    .build (.constraint #[⟨0x3f800000⟩, ⟨0x3f800000⟩]),
    .build (.bounds 4 (.lower (some ⟨0x40400000⟩))), .solve 2, .solution, .render, .account]

/-- With chunks of four the broken variable is found by the second launch of a
    scan, and with chunks of twelve by the first one. -/
theorem outcome_serve_of_workgroup_last_row :
    (Geometry.ofDevice (HostDevice.idle ⟨4, 0⟩).info Config.standard.maxWorkgroupSize).chunk = 4 ∧
    (Geometry.ofDevice (HostDevice.idle ⟨7, 3⟩).info Config.standard.maxWorkgroupSize).chunk = 12 ∧
    (∃ t v, Made 3 2 Config.standard t ∧ Solver.Boundary lastRowSession t v ∧
      v.state.history = #[⟨0, 4, 0⟩]) ∧
    Exec.outcome (serve 3 2 Config.standard lastRowSession ⟨.toHost (.idle ⟨7, 3⟩), #[]⟩)
      = Exec.outcome (serve 3 2 Config.standard lastRowSession ⟨.toHost (.idle ⟨4, 0⟩), #[]⟩) := by
  have hrun : Exec.endsWith (Solver.parallel 3 2 Config.standard ⟨.toHost (.idle ⟨4, 0⟩), #[]⟩)
      (fun s u => Exec.endsWith (Solver.session lastRowSession ⟨s.attach u.state, #[]⟩)
        fun _ v => decide (v.state.history = #[⟨0, 4, 0⟩])) = true := by decide +kernel
  rcases Exec.exists_of_endsWith hrun with ⟨s, u, hmake, hrest⟩
  rcases Exec.exists_of_endsWith hrest with ⟨answers, v, hsession, hhistory⟩
  have hmade : Made 3 2 Config.standard ⟨s.attach u.state, #[]⟩ := ⟨_, _, s, u, #[], hmake, rfl⟩
  refine ⟨by decide +kernel, by decide +kernel,
    ⟨_, v, hmade, .after hsession, of_decide_eq_true hhistory⟩, ?_⟩
  exact outcome_serve_of_workgroup 3 2 Config.standard (.idle ⟨4, 0⟩) (.idle ⟨7, 3⟩)
    lastRowSession #[] #[] (by decide) (by decide) (by decide +kernel) (by decide +kernel)
    (by decide +kernel)

end Parallel

end BoundedSimplex
