import BoundedSimplex.Device.Launch
import BoundedSimplex.Device.Entry

/-!
# Geometry of the Launches

How wide the launches of a search are on a given device.

The width of a workgroup is the largest power of two that the device, the
kernels and the caller all allow. Two-dimensional launches use square
workgroups, the widest whose items fit into that width. A scan covers one
workgroup on every compute unit at a time. That product is worked out exactly
here; an engine keeps it in a machine word, and there is none where it does not
fit.

A sum over a row needs one partial sum for each workgroup. As long as there
are more partial sums than a workgroup has items, a further launch sums those
in the same way. The counts of these further launches are worked out here
once, before anything is launched; if a workgroup has a single item the
counts do not shrink and there is no plan.

## Main definitions

* `Geometry`: The widths.
* `widestSide`: The side of a square workgroup.
* `Geometry.ofDevice`: The widths for a device and a cap.
* `foldPlan`: The counts of the launches that sum partial sums.
-/

namespace BoundedSimplex

/-- How wide the launches of a search are. The widths are fixed when an engine is made, from
    what its device reports and the caller allows. -/
structure Geometry where
  /-- The items of a workgroup in one dimension. -/
  workgroup : Nat
  /-- The side of a square workgroup. -/
  tile : Nat
  /-- The variables one launch of a scan covers. -/
  chunk : Nat

/-- A side doubled as often as the square of the doubled side still has at most
    `width` items. -/
def widestSide (width side : Nat) : Nat :=
  -- No side is ever zero; zero would be doubled for ever.
  if side ≠ 0 ∧ side * 2 * (side * 2) ≤ width then widestSide width (side * 2) else side
termination_by width - side
decreasing_by
  rename_i h
  have hle := Nat.le_mul_of_pos_right (side * 2) (show 0 < side * 2 by omega)
  omega

/-- The widths for a device, when the caller allows workgroups of at most
    `cap` items. Width and side are at most `maxKernelWorkgroup`. Nothing bounds
    the chunk, so whoever uses it has to check that it fits a machine word. -/
def Geometry.ofDevice (info : DeviceInfo) (cap : Option Nat) : Geometry :=
  let workgroup := floorPow2
    (min (min info.maxWorkgroupSize maxKernelWorkgroup) (cap.getD maxKernelWorkgroup))
  { workgroup := workgroup
    tile := widestSide workgroup 1
    chunk := max info.computeUnits 1 * workgroup }

/-- The counts of partial sums that have to be summed once more, from `count`
    down to at most `width`; nothing if that is not reached in the given
    number of steps. -/
def foldPlan (width : Nat) : (steps count : Nat) → Option (List Nat)
  | 0, count => if count ≤ width then some [] else none
  | steps + 1, count =>
    if count ≤ width then some []
    else (foldPlan width steps (ceilDiv count width)).map (count :: ·)

/-- The starts of the chunks that cover `count` variables. The last chunk may reach past the
    end, where the kernel finds nothing. -/
def chunkStarts (count chunk : Nat) : List Nat :=
  (List.range (ceilDiv count chunk)).map (· * chunk)

end BoundedSimplex
