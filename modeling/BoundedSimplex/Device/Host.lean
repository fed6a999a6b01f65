import BoundedSimplex.Kernel.Run

/-!
# The Host Device

A device that runs its kernels inside the process.

The device owns a memory and a table of compiled kernels. Compiling gives a
kernel a number and an empty list of arguments; arguments are bound one at a
time and stay bound from one launch to the next. A launch is checked in a
fixed order, the kernel, the geometry, and then the arguments from the first
on, and only a launch that passes is noted in the journal and run.

Like buffers, kernels are numbered in order and a number is never given out
again; kernels are numbered from zero.

## Main definitions

* `Limits`: What the device can run.
* `HostDevice`: The device.
* `HostDevice.launch`: A launch and its checks.
* `HostDevice.launchChecked`: The same where overflow is checked for.
-/

namespace BoundedSimplex

/-- What a device can run. Each launch is held against the first; the second only decides
    how much a scan covers at a time. -/
structure Limits where
  /-- The largest number of work items in a workgroup. -/
  maxWorkgroupSize : Nat := maxKernelWorkgroup
  /-- The number of workgroups that run side by side. -/
  computeUnits : Nat := 4

/-- A compiled kernel with the arguments bound so far. Arguments stay bound from one launch
    to the next, also after one that was refused. -/
structure CompiledKernel where
  /-- The kernel. -/
  entry : Entry
  /-- One place for each argument. -/
  args : Array (Option Arg)

namespace CompiledKernel

/-- A kernel without arguments. It has all its places from the start, and they are empty. -/
def fresh (entry : Entry) : CompiledKernel := ⟨entry, Array.replicate entry.arity none⟩

/-- The scalars that are bound, in order. -/
def boundScalars (k : CompiledKernel) : List Arg :=
  k.args.toList.filterMap fun a => a.filter fun a => a.scalarBits?.isSome

/-- Sort the arguments into scalars and buffers. The first one that is unset
    or of the wrong kind is reported. -/
def gather (k : CompiledKernel) : Except Error (Array UInt32 × Array Nat) :=
  (List.range k.args.size).foldlM (fun (scalars, buffers) i =>
    match (k.args[i]?).join with
    | none => .error (.unsetArgument k.entry.name i)
    | some arg =>
      if i < k.entry.scalarCount then
        match arg.scalarBits? with
        | some bits => .ok (scalars.push bits, buffers)
        | none => .error (.scalarExpected k.entry.name i)
      else
        match arg.buffer? with
        | some id => .ok (scalars, buffers.push id)
        | none => .error (.bufferExpected k.entry.name i)) (#[], #[])

/-- A launch of the kernel with its arguments, on a device whose workgroups
    have at most `limit` items. -/
def invocation (k : CompiledKernel) (size : LaunchSize) (limit : Nat) :
    Except Error Invocation := do
  size.validate k.entry.name limit
  let (scalars, buffers) ← k.gather
  pure ⟨k.entry, scalars, buffers, size⟩

end CompiledKernel

/-- A device that runs its kernels inside the process. Numbers of buffers and kernels are
    never given out again, so one that was released stands for nothing. -/
structure HostDevice where
  /-- What it can run. -/
  limits : Limits
  /-- Its buffers. -/
  memory : Memory
  /-- The kernel of each number, or nothing where it was released. -/
  kernels : Array (Option CompiledKernel)

namespace HostDevice

/-- A device without buffers and kernels. All others are made of this one by calls. -/
def idle (limits : Limits) : HostDevice := ⟨limits, .empty, #[]⟩

/-- What the device reports about itself. The name has the compute units in it. -/
def info (d : HostDevice) : DeviceInfo where
  family := .host
  name := s!"host ({d.limits.computeUnits} compute units)"
  maxWorkgroupSize := d.limits.maxWorkgroupSize
  computeUnits := d.limits.computeUnits

/-- The number of buffers in use. -/
def liveBuffers (d : HostDevice) : Nat := d.memory.live

/-- The numbers of the kernels in use. -/
def liveKernelIds (d : HostDevice) : List Nat :=
  (List.range d.kernels.size).filter fun id => (d.kernels[id]?).join.isSome

/-- The number of kernels in use. -/
def liveKernels (d : HostDevice) : Nat := d.liveKernelIds.length

/-- The kernel of a number. -/
def kernel (d : HostDevice) (id : Nat) : Except Error CompiledKernel :=
  match (d.kernels[id]?).join with
  | some k => .ok k
  | none => .error (.unknownKernel id)

/-- Hand out a buffer of zeros that holds at least `sizeBytes` bytes. Buffers are made of
    whole words, so it may hold up to three bytes more. -/
def allocate (sizeBytes : Nat) : Exec HostDevice Nat := do
  let d ← Exec.state
  let id := d.memory.nextId
  Exec.update fun d => { d with memory := d.memory.allocate ((sizeBytes + 3) / 4) }
  Exec.emit (.allocated id sizeBytes)
  pure id

/-- Take a buffer back. -/
def release (id : Nat) (d : HostDevice) : HostDevice :=
  { d with memory := d.memory.release id }

/-- Compile an entry point of a source. The device compiles sources of its own
    family only. -/
def compile (source : KernelSource) (entry : String) : Exec HostDevice Nat := do
  if source.family ≠ .host then Exec.fail (.foreignSource source)
  else match Entry.ofName? entry with
    | none => Exec.fail (.kernelNotFound source.name entry)
    | some e =>
      let d ← Exec.state
      Exec.update fun d => { d with kernels := d.kernels.push (some (.fresh e)) }
      pure d.kernels.size

/-- Take a kernel back. A number that stands for none is ignored. -/
def releaseKernel (id : Nat) (d : HostDevice) : HostDevice :=
  { d with kernels := d.kernels.setIfInBounds id none }

/-- Bind an argument of a kernel. Whether it is of the right kind for its place is not
    looked at before a launch. -/
def setArg (id index : Nat) (arg : Arg) : Exec HostDevice Unit := do
  let d ← Exec.state
  let k ← Exec.check (d.kernel id)
  Exec.check (Error.checkIndex index k.args.size)
  let k : CompiledKernel := { k with args := k.args.setIfInBounds index (some arg) }
  Exec.update fun d => { d with kernels := d.kernels.setIfInBounds id (some k) }

/-- Run a kernel with the arguments bound to it. The items of a workgroup are counted in a
    word of 64 bits, and a count that does not fit goes on with what is left of it. -/
def launch (id : Nat) (size : LaunchSize) : Exec HostDevice Unit := do
  let d ← Exec.state
  let k ← Exec.check (d.kernel id)
  let inv ← Exec.check (k.invocation size d.limits.maxWorkgroupSize)
  Exec.emit (.launched k.entry.name size)
  let (result, memory) := inv.run d.memory
  Exec.update fun d => { d with memory := memory }
  Exec.ofExcept result

/-- The same in a build that checks its arithmetic. The items are counted when the kernel is
    known and no dimension is empty, and a count that does not fit stops the process. -/
def launchChecked (id : Nat) (size : LaunchSize) : Exec HostDevice Unit := do
  let d ← Exec.state
  let _ ← Exec.check (d.kernel id)
  if size.countable then launch id size else throw .overflow

/-- Copy words to a buffer at a byte offset. -/
def write (id offset : Nat) (data : Words) : Exec HostDevice Unit := do
  let d ← Exec.state
  let memory ← Exec.check (d.memory.write id offset data)
  Exec.update fun d => { d with memory := memory }

/-- Copy `count` words from a buffer at a byte offset. -/
def read (id offset count : Nat) : Exec HostDevice Words := do
  let d ← Exec.state
  Exec.check (d.memory.read id offset count)

/-- Copy bytes to a buffer at a byte offset. -/
def writeBytes (id offset : Nat) (data : List UInt8) : Exec HostDevice Unit := do
  let d ← Exec.state
  let memory ← Exec.check (d.memory.writeBytes id offset data)
  Exec.update fun d => { d with memory := memory }

/-- Copy `length` bytes from a buffer at a byte offset. -/
def readBytes (id offset length : Nat) : Exec HostDevice (List UInt8) := do
  let d ← Exec.state
  Exec.check (d.memory.readBytes id offset length)

/-- The text of a buffer in descriptions. -/
private def bufferText (d : HostDevice) (id : Nat) : String :=
  let words := ", ".intercalate (((d.memory.words? id).getD #[]).toList.map toString)
  s!"{id}: [{words}]"

/-- The text of a kernel in descriptions. -/
private def kernelText (d : HostDevice) (id : Nat) : String :=
  match (d.kernels[id]?).join with
  | none => ""
  | some k =>
    let texts := k.args.toList.map fun
      | some a => s!"Some({a.text})"
      | none => "None"
    let args := ", ".intercalate texts
    let entry := k.entry.name
    s!"{id}: HostKernel \x7b entry: \"{entry}\", args: [{args}] \x7d"

/-- The text of the whole device in descriptions. -/
def text (d : HostDevice) : String :=
  let buffers := ", ".intercalate (d.memory.liveIds.map d.bufferText)
  let kernels := ", ".intercalate (d.liveKernelIds.map d.kernelText)
  let width := d.limits.maxWorkgroupSize
  let units := d.limits.computeUnits
  let config := s!"HostDeviceConfig \x7b max_workgroup_size: {width}, compute_units: {units} \x7d"
  let memory := s!"Memory \x7b buffers: \x7b{buffers}\x7d, next_id: {d.memory.lastId} \x7d"
  let compiled := s!"kernels: \x7b{kernels}\x7d, next_kernel: {d.kernels.size}"
  s!"HostKernelManager \x7b config: {config}, state: Mutex \x7b data: HostState \x7b memory: {memory}, {compiled} \x7d \x7d \x7d"

end HostDevice

end BoundedSimplex
