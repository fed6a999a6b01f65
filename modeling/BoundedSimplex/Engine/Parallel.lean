import BoundedSimplex.Engine.Basic
import BoundedSimplex.Engine.Geometry
import BoundedSimplex.Bounds.Resident
import BoundedSimplex.Solver.Config

/-!
# The Parallel Engine

The search as launches on a device.

Everything the search works on lives in twelve buffers that are made with
the engine: five for the bounds, the tableau, the three tables of the basis,
one word of output for the scans, and two buffers of partial sums that take
turns. The tableau and the basis are copied to the device once. After that
only the tables of the basis, the roles of two variables and a few scalars
move in an iteration.

Arguments that stay the same are bound once; the others are bound before each
launch. A scan puts the number of variables into the output, which no
variable has, launches chunk after chunk, and stops after the first one that
lowered it.

Partial sums that do not get fewer are summed for ever, unless the device
refuses to.

Extents of launches are machine words. Two of them are products, the chunk of a
scan and the items of a row rounded up to whole workgroups, and both are checked
where they are worked out: the first when the engine is made, the other before
each sum.

The device may refuse any request. What took effect before stays: the number
of rows is known before the tableau is copied, and the tables of the basis
are exchanged in the process before they are copied.

## Main definitions

* `Parallel`: What the process knows about the engine.
* `Parallel.create`: Compile the kernels and make the buffers.
* `Parallel.scan`: A scan, chunk after chunk.
* `Parallel.release`: Give kernels and buffers back.
-/

namespace BoundedSimplex

/-- What the process knows about an engine on a device: numbers of kernels and buffers, and
    the sizes they were made for. What the buffers hold is known to the device alone. -/
structure Parallel where
  /-- What the device reported about itself. -/
  info : DeviceInfo
  /-- The number of each kernel. -/
  kernels : List (Entry × Nat)
  /-- Bounds, values and roles. -/
  bounds : Bounds.Resident
  /-- The cells of the tableau. -/
  tableau : Buffer
  /-- The variable in each column. -/
  colVar : Buffer
  /-- The variable in each row. -/
  rowVar : Buffer
  /-- The place of each variable. -/
  place : Buffer
  /-- The result of a scan. -/
  output : Buffer
  /-- The partial sums, and the ones that are made from them. -/
  partials : Buffer × Buffer
  /-- How wide the launches are. -/
  geometry : Geometry
  /-- The number of variables. -/
  numVars : Nat
  /-- The number of rows that are taken. -/
  numRows : Nat
  /-- The number of columns. -/
  numCols : Nat
  /-- The distance within which a value counts as lying on a bound. -/
  tolerance : Binary32
  /-- Whether the tableau was copied. -/
  prepared : Bool

namespace Parallel

/-- Compile kernels. If one is refused those compiled before are given back, the latest one
    first. -/
def compileAll (source : KernelSource) : List Entry → Exec Device (List (Entry × Nat))
  | [] => pure []
  | e :: rest => do
    let id ← Device.compile source e.name
    let others ← Exec.guarded (Device.releaseKernel id) (compileAll source rest)
    pure ((e, id) :: others)

/-- The words of a table of the basis. Variables are numbered in 32 bits, so nothing is lost
    where a solver was made. -/
def tableWords (table : Array Nat) : Words := table.map (·.toUInt32)

/-- Compile the kernels and make the buffers. Nothing is asked of a device that
    runs no workgroup, or whose chunk does not fit a machine word. Buffers made
    before a failure are given back. The kernels are not: once all are compiled
    they belong to the engine, and there is no engine yet. -/
def create (config : Config Binary32) (maxRows numCols : Nat) : Exec Device Parallel := do
  let info ← Exec.view (·.info)
  if info.maxWorkgroupSize = 0 then Exec.fail (.zeroWorkgroup info)
  else
    let geometry := Geometry.ofDevice info config.maxWorkgroupSize
    -- The chunk is worked out before anything is asked of the device, so that nothing has to be
    -- given back if it does not fit.
    let _ ← Exec.word geometry.chunk
    let source := KernelSource.generalSimplex info.family
    let kernels ← compileAll source Entry.all
    let basis := Basis.initial maxRows numCols
    let groups := ceilDiv numCols geometry.workgroup
    -- Each buffer is guarded by those before it. The kernels are guarded by nothing.
    let bounds ← Bounds.Resident.allocate maxRows numCols
    let engine ← bounds.guarding do
      let tableau ← Buffer.zeroed (maxRows * numCols)
      tableau.guarding do
        let colVar ← Buffer.ofWords (tableWords basis.colVar)
        colVar.guarding do
          let rowVar ← Buffer.ofWords (tableWords basis.rowVar)
          rowVar.guarding do
            let place ← Buffer.ofWords (tableWords basis.place)
            place.guarding do
              let output ← Buffer.zeroed 1
              output.guarding do
                let first ← Buffer.zeroed groups
                first.guarding do
                  let second ← Buffer.zeroed groups
                  pure
                    { info, kernels, bounds, tableau, colVar, rowVar, place, output
                      partials := (first, second)
                      geometry
                      numVars := maxRows + numCols
                      numRows := 0
                      numCols
                      tolerance := config.tolerance
                      prepared := false : Parallel }
    Exec.emit (.engineReady info.name source.name geometry.workgroup geometry.chunk)
    pure engine

variable (p : Parallel)

/-- The name of the engine in reports and events. -/
def name : String := s!"parallel ({p.info.name})"

/-- The number of a kernel. An engine that was made has one for every entry. -/
def kernel (e : Entry) : Nat := (p.kernels.lookup e).getD 0

/-- Give kernels and buffers back. It cannot be refused, and it does not matter whether all
    of them are still there. -/
def release (d : Device) : Device :=
  let d := p.kernels.foldl (fun d (_, id) => d.releaseKernel id) d
  let buffers := [p.tableau, p.colVar, p.rowVar, p.place, p.output, p.partials.1, p.partials.2]
  buffers.foldl (fun d b => b.release d) (p.bounds.release d)

/-- Bind arguments of a kernel. They stay bound until they are bound anew, from one launch
    to the next. -/
def bind (e : Entry) (args : List (Nat × Arg)) : Exec Device Unit :=
  Device.setArgs (p.kernel e) args

/-- Launch a kernel. The request is told in the journal before it is made. -/
def run (e : Entry) (size : LaunchSize) : Exec Device Unit := do
  Exec.emit (.launchRequested e.name size)
  Device.launch (p.kernel e) size

/-- Copy the tables of the basis, all three in full. If one is refused the device is left
    with a mixture. -/
def uploadBasis (b : Basis) : Exec Device Unit := do
  p.colVar.write 0 (tableWords b.colVar)
  p.rowVar.write 0 (tableWords b.rowVar)
  p.place.write 0 (tableWords b.place)

/-- A count or an index as an argument, in a word of 32 bits. -/
def count (n : Nat) : Arg := .word n.toUInt32

/-- Bind the arguments that stay the same during a search. It is done once, after the
    tableau was copied, and later requests bind only what changes. -/
def bindInvariants : Exec Device Unit := do
  -- Left out here are the offset of a chunk, the broken variable, the row and column of an
  -- exchange, and the row, the counts and the buffers of a sum.
  let b := p.bounds
  p.bind .checkBounds
    [(0, count p.numVars), (2, .number p.tolerance), (3, b.lower.arg), (4, b.upper.arg),
      (5, b.bounded.arg), (6, b.values.arg), (7, b.flags.arg), (8, p.output.arg)]
  p.bind .findSuitable
    [(0, count p.numVars), (1, count p.numCols), (4, p.tableau.arg), (5, b.lower.arg),
      (6, b.upper.arg), (7, b.bounded.arg), (8, b.values.arg), (9, b.flags.arg),
      (10, p.place.arg), (11, p.output.arg)]
  p.bind .findSuitableComplete
    [(0, count p.numCols), (3, p.tableau.arg), (4, b.lower.arg), (5, b.upper.arg),
      (6, b.bounded.arg), (7, b.values.arg), (8, p.place.arg)]
  p.bind .pivotUpdateInner [(3, count p.numRows), (4, count p.numCols), (5, p.tableau.arg)]
  p.bind .pivotUpdateRow [(3, count p.numCols), (4, p.tableau.arg)]
  p.bind .pivotUpdateColumn [(3, count p.numRows), (4, count p.numCols), (5, p.tableau.arg)]
  p.bind .updateAssignment
    [(0, count p.numCols), (2, p.tableau.arg), (3, b.values.arg), (4, p.colVar.arg),
      (5, p.partials.1.arg)]
  p.bind .updateAssignmentComplete [(3, b.values.arg)]

/-- The engine can be used once the tableau was copied. Before that it refuses, and nothing
    is asked of the device. -/
def ensurePrepared : Exec Device Unit :=
  if p.prepared then pure () else Exec.fail .notPrepared

/-! ### Scans -/

/-- Launch a scan for chunk after chunk until one reports a variable. The output starts
    above every variable and can only be lowered, so the first chunk with a hit holds the
    lowest one. -/
def scanChunks (e : Entry) (offsetArg : Nat) : List Nat → Exec Device (Option Nat)
  | [] => pure none
  | offset :: rest => do
    Device.setArg (p.kernel e) offsetArg (count offset)
    p.run e (.linear p.geometry.chunk p.geometry.workgroup)
    let hit ← p.output.get 0
    if hit < p.numVars.toUInt32 then pure (some hit.toNat)
    else scanChunks e offsetArg rest

/-- The lowest variable that a scan finds. The output is set once for all chunks, since it
    is only lowered by a launch that finds something. -/
def scan (e : Entry) (offsetArg : Nat) : Exec Device (Option Nat) := do
  -- No variable has this number, so any hit is lower.
  p.output.set 0 p.numVars.toUInt32
  p.scanChunks e offsetArg (chunkStarts p.numVars p.geometry.chunk)

/-- The lowest broken basic variable. The kernel goes by the flags on the device, and not by
    the tables of the basis. -/
def checkBounds : Exec Device (Option Nat) := do
  p.ensurePrepared
  p.scan .checkBounds 1

/-- The lowest nonbasic variable that can correct the broken one. If there is one, a further
    launch carries out the correction. -/
def findSuitable (broken : Nat) : Exec Device (Option Nat) := do
  p.ensurePrepared
  Device.setArg (p.kernel .findSuitable) 2 (count broken)
  match ← p.scan .findSuitable 3 with
  | none => pure none
  | some suitable =>
    p.bind .findSuitableComplete [(1, count broken), (2, count suitable)]
    p.run .findSuitableComplete (.linear 1 1)
    pure (some suitable)

/-! ### Exchange -/

/-- Exchange a row and a column of the tableau on the device. Three launches change all the
    cells but the one where row and column meet, which is written last. -/
def exchange (row col : Nat) : Exec Device Binary32 := do
  let pivot := row * p.numCols + col
  let w ← p.tableau.get pivot
  let alpha : Binary32 := ⟨w⟩
  if alpha.eq 0 then Exec.fail (.zeroPivot row col)
  else
    let shared := [(0, Arg.number alpha), (1, count row), (2, count col)]
    p.bind .pivotUpdateInner shared
    p.bind .pivotUpdateRow shared
    p.bind .pivotUpdateColumn shared
    p.run .pivotUpdateInner (.planar p.numCols p.numRows p.geometry.tile)
    p.run .pivotUpdateRow (.linear p.numCols p.geometry.workgroup)
    p.run .pivotUpdateColumn (.linear p.numRows p.geometry.workgroup)
    -- No kernel touches the cell where row and column meet.
    p.tableau.set pivot (1 / alpha).bits
    pure alpha

/-- Copy the exchanged basis and the roles of the two variables. The roles are written one
    after the other, so in between both variables are nonbasic. -/
def recordExchange (b : Basis) (leaving entering : Nat) : Exec Device Unit := do
  p.uploadBasis b
  p.bounds.writeRole leaving .nonbasic
  p.bounds.writeRole entering .basic

/-! ### Values -/

/-- Sum the products of a row, one sum for each workgroup. The row is rounded up
    to whole workgroups, and its items are counted in a machine word. -/
def firstSums (row : Nat) : Exec Device Unit := do
  let width := p.geometry.workgroup
  Device.setArg (p.kernel .updateAssignment) 1 (count row)
  let items ← Exec.word (ceilDiv p.numCols width * width)
  p.run .updateAssignment (.linear items width)

/-- Sum partial sums once more, one for each workgroup. The items are rounded up to whole
    workgroups, as for the products. -/
def foldOnce (n : Nat) (source target : Buffer) : Exec Device Unit := do
  p.bind .reducePartialSums [(0, count n), (1, source.arg), (2, target.arg)]
  let items ← Exec.word (ceilDiv n p.geometry.workgroup * p.geometry.workgroup)
  p.run .reducePartialSums (.linear items p.geometry.workgroup)

/-- Sum partial sums once more for each count of a plan. The result tells
    which of the two buffers holds the last ones. -/
def foldPartials : List Nat → (source target : Buffer) → Exec Device Buffer
  | [], source, _ => pure source
  | n :: rest, source, target => do
    p.foldOnce n source target
    foldPartials rest target source

/-- Sum partial sums that do not get fewer over and over. Each time makes at
    least one request of every kind it makes at all. So if the refusal is at
    most `times` requests of its kind away, it comes in time or not at all. -/
def foldInVain (n : Nat) : (times : Nat) → (source target : Buffer) → Exec Device Unit
  | 0, _, _ => throw .endless
  | times + 1, source, target => do
    p.foldOnce n source target
    foldInVain n times target source

/-- Recompute the basic variable of one row: the products, the folds of the plan, and the
    last sum as its value. The two buffers for partial sums take turns. -/
def updateRow (b : Basis) (row : Nat) : Exec Device Unit := do
  let width := p.geometry.workgroup
  let groups := ceilDiv p.numCols width
  p.firstSums row
  match foldPlan width groups groups with
  | none =>
    -- With one item to a workgroup there are as many partial sums as before.
    let times ← Exec.view (·.untilRefusal)
    p.foldInVain groups times p.partials.1 p.partials.2
  | some plan =>
    let sums ← p.foldPartials plan p.partials.1 p.partials.2
    let last := plan.foldl (fun _ n => ceilDiv n width) groups
    let var ← Exec.entry (b.rowVar? row)
    p.bind .updateAssignmentComplete [(0, count last), (1, count var), (2, sums.arg)]
    p.run .updateAssignmentComplete (.linear width width)

/-- Recompute the basic variables of all rows that are taken. The first row that stops
    leaves those before it recomputed. -/
def updateAssignment (b : Basis) : Exec Device Unit := do
  p.ensurePrepared
  (List.range p.numRows).forM (p.updateRow b)

/-! ### The engine -/

/-- The workspace of an engine on a device. The device is a part of it, so an operation of
    the engine has everything it can touch in its state. -/
abbrev Desk := Workspace (Attached Parallel) Binary32

/-- An operation of the device, which may depend on the engine as it is by then. -/
def onDevice {α : Type} (act : Parallel → Exec Device α) : Exec Desk α :=
  Workspace.onEngine (Attached.onDevice act)

/-- Change what the process knows about the engine. -/
def change (f : Parallel → Parallel) : Exec Desk Unit :=
  Exec.update fun w => { w with engine := { w.engine with handle := f w.engine.handle } }

/-- Copy the tableau and the basis, and bind the arguments that stay the same. The engine
    counts as prepared only if none of this was refused. -/
def prepare : Exec Desk Unit := do
  let w ← Exec.state
  -- This stays even if the device refuses what follows.
  change fun p => { p with numRows := w.tableau.numRows }
  onDevice fun p => do
    p.tableau.write 0 (w.tableau.cells.map (·.bits))
    p.uploadBasis w.basis
    p.bindInvariants
  change fun p => { p with prepared := true }
  Exec.emit (.tableauUploaded w.tableau.numRows w.engine.handle.numCols)

/-- Exchange two variables on the device and in the basis. The tableau comes first; if that
    is refused the basis is as it was. -/
def pivot (leaving entering : Nat) : Exec Desk Unit := do
  onDevice ensurePrepared
  let w ← Exec.state
  let row ← Exec.entry (w.basis.place? leaving)
  let col ← Exec.entry (w.basis.place? entering)
  let alpha ← onDevice fun p => p.exchange row col
  let (_, basis) ← Exec.entry (w.basis.swap? leaving entering)
  -- The process knows the new basis before the device does.
  Exec.update fun w => { w with basis := basis }
  onDevice fun p => p.recordExchange basis leaving entering
  Exec.emit (.pivotApplied row col alpha)

/-- A coefficient, from the device once the tableau was copied. Until then the tableau of
    the process is the only one with rows. -/
def entry (row col : Nat) : Exec Desk Binary32 := do
  let w ← Exec.state
  if w.engine.handle.prepared then
    Exec.check (Error.checkIndex row w.tableau.maxRows)
    Exec.check (Error.checkIndex col w.engine.handle.numCols)
    let bits ← onDevice fun p => p.tableau.get (row * p.numCols + col)
    pure ⟨bits⟩
  else Exec.check (w.tableau.get row col)

instance : BoundStore (Attached Parallel) Binary32 :=
  .ofPart (fun a => (⟨a.handle.bounds, a.device⟩ : Attached Bounds.Resident))
    (fun b a => { a with device := b.device })

instance : Engine (Attached Parallel) Binary32 where
  name a := a.handle.name
  prepare := prepare
  checkBounds := onDevice checkBounds
  findSuitable broken := onDevice fun p => p.findSuitable broken
  pivot := pivot
  updateAssignment := do
    let w ← Exec.state
    onDevice fun p => p.updateAssignment w.basis
  entry := entry

end Parallel

end BoundedSimplex
