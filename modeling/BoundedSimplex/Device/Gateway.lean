import BoundedSimplex.Device.Host

/-!
# The Gateway to a Device

A device as the search sees it.

The search reaches a device through a gateway. The gateway passes every
request on, counts it, and keeps a record of the launches and of the bytes
that were moved. It can report another name, family or size than the device
behind it has, and it can refuse one request of its choice with whatever error
it likes, and the request is then counted but neither passed on nor recorded.
Releases are not requests: they always reach the device.

Several searches may share one gateway. Each knows its own buffers and
kernels by number only.

## Main definitions

* `Request`: The kinds of request.
* `RefusedRequest`: A request that is refused, and the error it is refused with.
* `Device`: A gateway with the device behind it.
* `Device.refusal?`: The error of a request that is refused if it is made now.
* `Device.ask`: Count a request, and refuse it if it is the one to refuse.
* `Device.untilRefusal`: How far away the refusal is.

## Theorems

* `Device.refusal?_eq_some_iff`: Exactly the one request is refused.
-/

namespace BoundedSimplex

/-- The kinds of request. Releases are not among them, since nothing can refuse one. -/
inductive Request where
  /-- Hand out a buffer. -/
  | allocate
  /-- Compile a kernel. -/
  | compile
  /-- Bind an argument. -/
  | setArg
  /-- Run a kernel. -/
  | launch
  /-- Copy to a buffer. -/
  | toDevice
  /-- Copy from a buffer. -/
  | fromDevice
deriving DecidableEq

namespace Request

/-- The name of a kind of request. -/
def name : Request → String
  | .allocate => "allocate"
  | .compile => "compile"
  | .setArg => "set_arg"
  | .launch => "launch"
  | .toDevice => "to_device"
  | .fromDevice => "from_device"

/-- Every kind of request. -/
def all : List Request := [.allocate, .compile, .setArg, .launch, .toDevice, .fromDevice]

/-- The kind of request of a name. -/
def ofName? (name : String) : Option Request := all.find? (·.name == name)

end Request

/-- How often each kind of request was made, and which one was made last. A request that is
    refused counts. -/
structure Tally where
  /-- Buffers asked for. -/
  allocate : Nat := 0
  /-- Kernels asked for. -/
  compile : Nat := 0
  /-- Arguments bound. -/
  setArg : Nat := 0
  /-- Launches. -/
  launch : Nat := 0
  /-- Transfers to buffers. -/
  toDevice : Nat := 0
  /-- Transfers from buffers. -/
  fromDevice : Nat := 0
  /-- The latest request. -/
  latest : Option Request := none

namespace Tally

/-- How often a kind of request was made, refused ones included. -/
def count (t : Tally) : Request → Nat
  | .allocate => t.allocate
  | .compile => t.compile
  | .setArg => t.setArg
  | .launch => t.launch
  | .toDevice => t.toDevice
  | .fromDevice => t.fromDevice

/-- One more request of a kind, which is then the latest. -/
def add (t : Tally) (r : Request) : Tally :=
  let t := { t with latest := some r }
  match r with
  | .allocate => { t with allocate := t.allocate + 1 }
  | .compile => { t with compile := t.compile + 1 }
  | .setArg => { t with setArg := t.setArg + 1 }
  | .launch => { t with launch := t.launch + 1 }
  | .toDevice => { t with toDevice := t.toDevice + 1 }
  | .fromDevice => { t with fromDevice := t.fromDevice + 1 }

theorem count_add (t : Tally) (r s : Request) :
    (t.add r).count s = if r = s then t.count s + 1 else t.count s := by
  cases r <;> cases s <;> rfl

theorem latest_add (t : Tally) (r : Request) : (t.add r).latest = some r := by
  cases r <;> rfl

end Tally

/-- The bytes that were handed out and moved. Only requests that were carried out count. -/
structure Traffic where
  /-- The bytes of all buffers that were handed out, as they were asked for. -/
  allocated : Nat := 0
  /-- The bytes copied to buffers. -/
  toDevice : Nat := 0
  /-- The bytes copied from buffers. -/
  fromDevice : Nat := 0

/-- A launch as it was requested, noted before the device has looked at it. The scalars tell
    launches of one kernel apart. -/
structure LaunchRecord where
  /-- The name of the kernel. -/
  entry : String
  /-- The geometry. -/
  size : LaunchSize
  /-- The scalars bound at that moment. -/
  scalars : List Arg

/-- A request that is refused. Requests of a kind are told apart by how many of
    that kind were made before, so it is always a single one. -/
structure RefusedRequest where
  /-- The kind of the request. -/
  request : Request
  /-- How many of that kind are made before it. -/
  before : Nat
  /-- The error that the request is answered with. -/
  error : Error
deriving DecidableEq

/-- The refusal of a request on purpose, whose error tells which request it
    was. -/
def RefusedRequest.injected (r : Request) (before : Nat) : RefusedRequest :=
  ⟨r, before, .injected r.name before⟩

/-- A gateway with the device behind it. A search knows nothing but the gateway, which can
    stand for a wider device, a narrower one, or one that fails. -/
structure Device where
  /-- The device that does the work. -/
  host : HostDevice
  /-- What is reported about it. -/
  info : DeviceInfo
  /-- The request that is refused, if one is. -/
  refuse : Option RefusedRequest
  /-- The requests so far. -/
  tally : Tally
  /-- The bytes so far. -/
  traffic : Traffic
  /-- The launches so far, the newest first. -/
  launches : List LaunchRecord

namespace Device

/-- A gateway to a device that reports the truth and refuses nothing. Any device can be
    behind it, also one that is in use already. -/
def toHost (host : HostDevice) : Device where
  host := host
  info := host.info
  refuse := none
  tally := {}
  traffic := {}
  launches := []

/-- A gateway to a new device with the given limits. -/
def ofLimits (limits : Limits) : Device := toHost (.idle limits)

/-- An operation on the device behind the gateway. What the gateway counts does not change
    by it. -/
def onHost {α : Type} (act : Exec HostDevice α) : Exec Device α :=
  Exec.focus (·.host) (fun host d => { d with host := host }) act

/-- The error that a request is answered with if it is made now. There is one at most, for
    the kind and the number of requests tell which one it is. -/
def refusal? (d : Device) (r : Request) : Option Error :=
  match d.refuse with
  | some x => if x.request = r ∧ x.before = d.tally.count r then some x.error else none
  | none => none

/-- A request is refused if and only if it is the one that the gateway was set to refuse: of
    that kind, and after exactly as many of that kind. -/
theorem refusal?_eq_some_iff {d : Device} {r : Request} {e : Error} :
    d.refusal? r = some e ↔ d.refuse = some ⟨r, d.tally.count r, e⟩ := by
  rw [refusal?]
  -- A gateway that was set to refuse nothing never does.
  cases d.refuse with
  | none => exact iff_of_false nofun nofun
  | some x =>
      rcases x with ⟨r', before, e'⟩
      rw [Option.some.injEq, RefusedRequest.mk.injEq]
      show (if r' = r ∧ before = d.tally.count r then some e' else none) = some e ↔ _
      split
      · rename_i h
        rw [Option.some.injEq]
        exact ⟨fun he => ⟨h.1, h.2, he⟩, fun he => he.2.2⟩
      · rename_i h
        exact iff_of_false nofun fun he => h ⟨he.1, he.2.1⟩

theorem refusal?_of_none {d : Device} (h : d.refuse = none) (r : Request) :
    d.refusal? r = none := by
  rw [refusal?, h]

/-- Count a request, and refuse it if it is the one to refuse. Every request begins with
    this, so the device behind does not learn of one that is refused. -/
def ask (r : Request) : Exec Device Unit := do
  let d ← Exec.state
  -- A refused request counts like any other: the next one of its kind is another one.
  Exec.update fun d => { d with tally := d.tally.add r }
  match d.refusal? r with
  | some e => Exec.fail e
  | none => pure ()

/-- How many more requests of the kind to refuse are made up to the refused
    one, which counts; zero if nothing will be refused any more. -/
def untilRefusal (d : Device) : Nat :=
  match d.refuse with
  | some x => x.before + 1 - d.tally.count x.request
  | none => 0

/-- Hand out a buffer of at least `sizeBytes` bytes. The result is its number. -/
def allocate (sizeBytes : Nat) : Exec Device Nat := do
  ask .allocate
  let id ← onHost (HostDevice.allocate sizeBytes)
  Exec.update fun d =>
    { d with traffic := { d.traffic with allocated := d.traffic.allocated + sizeBytes } }
  pure id

/-- Take a buffer back. -/
def release (id : Nat) (d : Device) : Device := { d with host := d.host.release id }

/-- Compile an entry point of a source. -/
def compile (source : KernelSource) (entry : String) : Exec Device Nat := do
  ask .compile
  onHost (HostDevice.compile source entry)

/-- Take a kernel back. -/
def releaseKernel (id : Nat) (d : Device) : Device := { d with host := d.host.releaseKernel id }

/-- Bind an argument of a kernel. -/
def setArg (kernel index : Nat) (arg : Arg) : Exec Device Unit := do
  ask .setArg
  onHost (HostDevice.setArg kernel index arg)

/-- Bind several arguments of a kernel, up to the first one that is refused. Those before it
    stay bound. -/
def setArgs (kernel : Nat) (args : List (Nat × Arg)) : Exec Device Unit :=
  args.forM fun (index, arg) => setArg kernel index arg

/-- The record of a launch of a kernel. A number that stands for no kernel is recorded as
    well, without a name. -/
def recordOf (d : Device) (kernel : Nat) (size : LaunchSize) : LaunchRecord :=
  match (d.host.kernels[kernel]?).join with
  | some k => ⟨k.entry.name, size, k.boundScalars⟩
  | none => ⟨"", size, []⟩

/-- Run a kernel with the arguments bound to it. The launch is recorded even if the device
    then refuses it. -/
def launch (kernel : Nat) (size : LaunchSize) : Exec Device Unit := do
  ask .launch
  -- Recorded even if the device goes on to refuse it.
  Exec.update fun d => { d with launches := d.recordOf kernel size :: d.launches }
  onHost (HostDevice.launch kernel size)

/-- Record a transfer to a buffer. -/
private def countIn (bytes : Nat) : Exec Device Unit :=
  Exec.update fun d =>
    { d with traffic := { d.traffic with toDevice := d.traffic.toDevice + bytes } }

/-- Record a transfer from a buffer. -/
private def countOut (bytes : Nat) : Exec Device Unit :=
  Exec.update fun d =>
    { d with traffic := { d.traffic with fromDevice := d.traffic.fromDevice + bytes } }

/-- Copy words to a buffer at a byte offset. -/
def write (id offset : Nat) (data : Words) : Exec Device Unit := do
  ask .toDevice
  onHost (HostDevice.write id offset data)
  countIn (4 * data.size)

/-- Copy `count` words from a buffer at a byte offset. -/
def read (id offset count : Nat) : Exec Device Words := do
  ask .fromDevice
  let data ← onHost (HostDevice.read id offset count)
  countOut (4 * count)
  pure data

/-- Copy bytes to a buffer at a byte offset. -/
def writeBytes (id offset : Nat) (data : List UInt8) : Exec Device Unit := do
  ask .toDevice
  onHost (HostDevice.writeBytes id offset data)
  countIn data.length

/-- Copy `length` bytes from a buffer at a byte offset. -/
def readBytes (id offset length : Nat) : Exec Device (List UInt8) := do
  ask .fromDevice
  let data ← onHost (HostDevice.readBytes id offset length)
  countOut length
  pure data

/-- A buffer that holds the given bytes. If they cannot be copied the buffer
    stays behind. -/
def allocateFrom (data : List UInt8) : Exec Device Nat := do
  let id ← allocate data.length
  writeBytes id 0 data
  pure id

/-- The launches since they were last taken, the oldest first. They are then
    forgotten. -/
def takeLaunches : Exec Device (List LaunchRecord) := do
  let d ← Exec.state
  Exec.update fun d => { d with launches := [] }
  pure d.launches.reverse

end Device

end BoundedSimplex
