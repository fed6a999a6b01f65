import BoundedSimplex.Device.Gateway

/-!
# Handles Attached to a Device

Something that lives on a device, together with that device.

What is kept on a device is known to the process by a handle: numbers of
buffers and kernels, and lengths. A handle alone can do nothing, and one
device can serve several handles. Attaching a handle to a device gives a
state of its own for as long as an operation runs; detaching it gives back
the device as the operation left it, for the next handle.

## Main definitions

* `Attached`: A handle and the device it lives on.
* `Attached.onDevice`: An operation of the device.
-/

namespace BoundedSimplex

/-- A handle and the device it lives on. The handle alone can do nothing; with its device it
    is a state that operations can work on. -/
structure Attached (η : Type) where
  /-- What the process knows. -/
  handle : η
  /-- The device behind it. -/
  device : Device

namespace Attached

variable {η α : Type}

/-- An operation of the device, which may depend on the handle. It cannot change the handle. -/
def onDevice (act : η → Exec Device α) : Exec (Attached η) α := do
  let h ← Exec.view (·.handle)
  Exec.focus (·.device) (fun d a => { a with device := d }) (act h)

end Attached

end BoundedSimplex
