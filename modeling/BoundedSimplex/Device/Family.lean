/-!
# Device Families

The kinds of device a search can be dispatched to.

A family decides which kernel source is compiled, and nothing else. Only the
host family has a device behind it here; the others can be named, and are
refused where a device would have to be opened.

## Main definitions

* `Family`: The kinds of device.
* `KernelSource`: A kernel source for one family.
* `DeviceInfo`: What a device reports about itself.
-/

namespace BoundedSimplex

/-- The kinds of device. There is something behind one of them only. -/
inductive Family where
  /-- The device that runs inside the process. -/
  | host
  /-- Devices programmed with CUDA. -/
  | cuda
  /-- Adapters programmed in WGSL. -/
  | webGpu
  /-- Devices programmed with OpenCL. -/
  | openCl
deriving DecidableEq

namespace Family

/-- The short name, as it appears in reports. -/
def name : Family → String
  | .host => "host"
  | .cuda => "cuda"
  | .webGpu => "wgpu"
  | .openCl => "opencl"

/-- The name used in messages about a family that cannot be used. -/
def label : Family → String
  | .host => "Host"
  | .cuda => "Cuda"
  | .webGpu => "WebGpu"
  | .openCl => "OpenCl"

/-- Every family, in the order of declaration. -/
def all : List Family := [.host, .cuda, .webGpu, .openCl]

/-- The family of a short name. -/
def ofName? (name : String) : Option Family := all.find? (·.name == name)

end Family

/-- A named kernel source and the family it is written for. A device compiles sources of its
    own family. -/
structure KernelSource where
  /-- The name of the source. -/
  name : String
  /-- The family that can compile it. -/
  family : Family

/-- The source of the general simplex kernels for a family. There is one name for it in all
    families, and a device accepts that of its own only. -/
def KernelSource.generalSimplex (family : Family) : KernelSource where
  name := match family with
    | .host => "general_simplex.host"
    | .cuda => "general_simplex.cu"
    | .webGpu => "general_simplex.wgsl"
    | .openCl => "general_simplex.cl"
  family := family

/-- What a device reports about itself. It need not be true: a gateway can report what it
    likes, and the widths of an engine are worked out from the report. -/
structure DeviceInfo where
  /-- The family of the device. -/
  family : Family
  /-- A name for people to read. -/
  name : String
  /-- The largest number of work items one workgroup may have. -/
  maxWorkgroupSize : Nat
  /-- The number of workgroups that run side by side. -/
  computeUnits : Nat

end BoundedSimplex
