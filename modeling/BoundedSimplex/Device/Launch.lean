import BoundedSimplex.Error

/-!
# Launch Geometry

How many work items a launch asks for, and how they are grouped.

A launch names a grid of work items and the shape of one workgroup. Whole
workgroups run, so the grid is rounded up to a multiple of the group in every
dimension, and a kernel has to ignore the items beyond the ones it was asked
for. `span` is the rounded-up extent, the range over which a kernel actually
sees work items.

Dimensions are machine words of 32 bits, and the items of a workgroup are counted
in a word of 64. Three dimensions can hold more items than that. What is counted
then is the remainder, so that a workgroup of `2 ^ 64` items counts as empty. A span
is a product as well, but less than a group longer than its dimension.

Workgroups of one search are as wide as the device allows, but always a power
of two, since the reductions halve a workgroup until one item is left.

## Main definitions

* `Extent`: A size in three dimensions.
* `Extent.items`: The number of items, as a word holds it.
* `LaunchSize`: The grid and the workgroup of a launch.
* `LaunchSize.groups`: The number of workgroups in each dimension.
* `LaunchSize.validate`: The launches a device accepts.
* `LaunchSize.countable`: Whether the items of a workgroup fit the word they are counted in.
* `floorPow2`: The largest power of two not above a number.

## Theorems

* `Extent.items_eq_of_lt`: The number of items is the product if a word holds it.
* `LaunchSize.groups_x`, `LaunchSize.groups_y`: The number of workgroups fits.
* `LaunchSize.spanX_linear`, `LaunchSize.spanX_planar`, `LaunchSize.spanY_planar`: The
  spans of the launches there are.
* `LaunchSize.validate_eq_ok_iff`: Exactly the launches without an empty
  dimension and with a group within the limit are accepted.
* `floorPow2_le`: It is not above the number.
* `lt_two_mul_floorPow2`: Its double is.
-/

namespace BoundedSimplex

/-- A size in three dimensions, each of them a machine word. A product of dimensions can be
    larger than any of these. -/
structure Extent where
  /-- The first dimension, which varies fastest. -/
  first : UInt32
  /-- The second dimension. -/
  second : UInt32
  /-- The third dimension. -/
  third : UInt32
deriving DecidableEq

namespace Extent

/-- The size with these dimensions. Of a number that does not fit a machine word
    only the lower bits are kept. -/
def of (x y z : Nat) : Extent := ⟨x.toUInt32, y.toUInt32, z.toUInt32⟩

/-- The size along the first dimension. -/
def x (e : Extent) : Nat := e.first.toNat

/-- The size along the second dimension. -/
def y (e : Extent) : Nat := e.second.toNat

/-- The size along the third dimension. -/
def z (e : Extent) : Nat := e.third.toNat

variable {e : Extent} {x y z : Nat}

theorem x_lt (e : Extent) : e.x < UInt32.size := e.first.toNat_lt

theorem y_lt (e : Extent) : e.y < UInt32.size := e.second.toNat_lt

theorem x_of (h : x < UInt32.size) : (of x y z).x = x := UInt32.toNat_ofNat_of_lt h

theorem y_of (h : y < UInt32.size) : (of x y z).y = y := UInt32.toNat_ofNat_of_lt h

theorem z_of (h : z < UInt32.size) : (of x y z).z = z := UInt32.toNat_ofNat_of_lt h

/-- The text of a size, as messages and events show it. -/
def text (e : Extent) : String := s!"[{e.x}, {e.y}, {e.z}]"

/-- The number of items of that size, as far as a word of 64 bits holds it. -/
def items (e : Extent) : Nat := (e.first.toUInt64 * e.second.toUInt64 * e.third.toUInt64).toNat

/-- Whether some dimension is empty. The message does not say which one. -/
def hasEmpty (e : Extent) : Bool := e.x == 0 || e.y == 0 || e.z == 0

theorem items_eq (e : Extent) : e.items = e.x * e.y * e.z % UInt64.size := by
  rw [items, UInt64.toNat_mul, UInt64.toNat_mul, UInt32.toNat_toUInt64, UInt32.toNat_toUInt64,
    UInt32.toNat_toUInt64, Nat.mod_mul_mod]
  rfl

theorem items_eq_of_lt (h : e.x * e.y * e.z < UInt64.size) : e.items = e.x * e.y * e.z := by
  rw [items_eq, Nat.mod_eq_of_lt h]

theorem hasEmpty_eq (hx : 0 < e.x) (hy : 0 < e.y) (hz : 0 < e.z) : e.hasEmpty = false := by
  rw [hasEmpty, beq_false_of_ne (Nat.ne_of_gt hx), beq_false_of_ne (Nat.ne_of_gt hy),
    beq_false_of_ne (Nat.ne_of_gt hz)]
  rfl

end Extent

/-- The grid of work items a launch asks for, and the shape of a workgroup. Both come from
    the caller; how many groups there are follows. -/
structure LaunchSize where
  /-- The work items asked for. -/
  grid : Extent
  /-- The work items of one workgroup. -/
  group : Extent
deriving DecidableEq

/-- The number of groups of width `width` that cover `count` items. A width of
    zero counts as one. -/
def ceilDiv (count width : Nat) : Nat := (count + (max width 1 - 1)) / max width 1

/-- There are no more groups than items, so a buffer with a place for each item has one for
    each group. -/
theorem ceilDiv_le {count width : Nat} : ceilDiv count width ≤ count := by
  rw [ceilDiv, ← Nat.lt_succ_iff, Nat.div_lt_iff_lt_mul (by omega), Nat.succ_mul]
  have hle := Nat.le_mul_of_pos_right count (show 0 < max width 1 by omega)
  omega

/-- The largest power of two not above `n`, and one for zero. It is stated by the logarithm;
    that counting leading zeros comes to the same is a theorem. -/
def floorPow2 (n : Nat) : Nat := Nat.pow 2 n.log2

namespace LaunchSize

/-- A launch in one dimension. The others have a single item, and so has the workgroup along
    them. -/
def linear (grid group : Nat) : LaunchSize := ⟨.of grid 1 1, .of group 1 1⟩

/-- A launch over `cols` by `rows` items, in square workgroups of side `tile`. The grid is
    rounded up to whole squares, and the kernel leaves out what is beyond the table. -/
def planar (cols rows tile : Nat) : LaunchSize := ⟨.of cols rows 1, .of tile tile 1⟩

/-- The number of workgroups in each dimension. The last one may reach beyond the items that
    were asked for. -/
def groups (size : LaunchSize) : Extent :=
  .of (ceilDiv size.grid.x size.group.x) (ceilDiv size.grid.y size.group.y)
    (ceilDiv size.grid.z size.group.z)

/-- The work items along `x` once the grid is rounded up to whole groups. A kernel runs for
    all of them and has to ignore those that are past the end of its data. -/
def spanX (size : LaunchSize) : Nat := size.groups.x * size.group.x

/-- The work items along `y` once the grid is rounded up to whole groups. -/
def spanY (size : LaunchSize) : Nat := size.groups.y * size.group.y

/-- The text of a launch in messages. -/
def text (size : LaunchSize) : String :=
  s!"LaunchSize \x7b global: {size.grid.text}, local: {size.group.text} \x7d"

/-- A device with workgroups of at most `limit` items refuses a launch with an
    empty dimension, and then one with a wider workgroup. -/
def validate (size : LaunchSize) (kernel : String) (limit : Nat) : Except Error Unit :=
  if size.group.hasEmpty || size.grid.hasEmpty then
    .error (.emptyDimension kernel size.text)
  else if limit < size.group.items then
    .error (.wideWorkgroup kernel size.group.items limit)
  else .ok ()

/-- The items of a workgroup are counted without overflow. They are not counted at all if
    some dimension is empty. -/
def countable (size : LaunchSize) : Bool :=
  size.group.hasEmpty || size.grid.hasEmpty ||
    decide (size.group.x * size.group.y * size.group.z < UInt64.size)

variable {grid group cols rows tile : Nat}

theorem groups_x (size : LaunchSize) : size.groups.x = ceilDiv size.grid.x size.group.x :=
  Extent.x_of (Nat.lt_of_le_of_lt ceilDiv_le size.grid.x_lt)

theorem groups_y (size : LaunchSize) : size.groups.y = ceilDiv size.grid.y size.group.y :=
  Extent.y_of (Nat.lt_of_le_of_lt ceilDiv_le size.grid.y_lt)

theorem groups_linear (hgrid : grid < UInt32.size) (hgroup : group < UInt32.size) :
    (linear grid group).groups.x = ceilDiv grid group := by
  rw [groups_x, linear, Extent.x_of hgrid, Extent.x_of hgroup]

theorem spanX_linear (hgrid : grid < UInt32.size) (hgroup : group < UInt32.size) :
    (linear grid group).spanX = ceilDiv grid group * group := by
  rw [spanX, groups_linear hgrid hgroup, linear, Extent.x_of hgroup]

theorem spanX_planar (hcols : cols < UInt32.size) (htile : tile < UInt32.size) :
    (planar cols rows tile).spanX = ceilDiv cols tile * tile := by
  rw [spanX, groups_x, planar, Extent.x_of hcols, Extent.x_of htile]

theorem spanY_planar (hrows : rows < UInt32.size) (htile : tile < UInt32.size) :
    (planar cols rows tile).spanY = ceilDiv rows tile * tile := by
  rw [spanY, groups_y, planar, Extent.y_of hrows, Extent.y_of htile]

theorem items_linear (hgroup : group < UInt32.size) : (linear grid group).group.items = group := by
  have hx : (linear grid group).group.x = group := Extent.x_of hgroup
  have hone : (linear grid group).group.x * (linear grid group).group.y
      * (linear grid group).group.z = group := by
    rw [hx, linear, Extent.y_of (by decide), Extent.z_of (by decide), Nat.mul_one, Nat.mul_one]
  rw [Extent.items_eq_of_lt (by rw [hone]; exact Nat.lt_trans hgroup (by decide)), hone]

theorem items_planar (htile : tile < UInt32.size) :
    (planar cols rows tile).group.items = tile * tile := by
  have hsquare : (planar cols rows tile).group.x * (planar cols rows tile).group.y
      * (planar cols rows tile).group.z = tile * tile := by
    rw [planar, Extent.x_of htile, Extent.y_of htile, Extent.z_of (by decide), Nat.mul_one]
  have hlt : tile * tile < UInt64.size := Nat.mul_lt_mul'' htile htile
  rw [Extent.items_eq_of_lt (by rwa [hsquare]), hsquare]

theorem validate_eq_ok_iff {size : LaunchSize} {kernel : String} {limit : Nat} :
    size.validate kernel limit = .ok () ↔
      size.group.hasEmpty = false ∧ size.grid.hasEmpty = false ∧ size.group.items ≤ limit := by
  unfold validate
  split <;> rename_i h
  · simp only [reduceCtorEq, false_iff]
    intro hn
    simp [hn.1, hn.2.1] at h
  · simp only [Bool.or_eq_true, not_or, Bool.not_eq_true] at h
    split <;> rename_i hlim
    · simp only [reduceCtorEq, false_iff]
      intro hn
      omega
    · simp [h.1, h.2, Nat.le_of_not_lt hlim]

end LaunchSize

theorem floorPow2_le {n : Nat} (h : n ≠ 0) : floorPow2 n ≤ n := Nat.log2_self_le h

theorem lt_two_mul_floorPow2 (n : Nat) : n < 2 * floorPow2 n := by
  have h := @Nat.lt_log2_self n
  rw [Nat.pow_succ] at h
  rw [floorPow2, Nat.pow_eq]
  omega

end BoundedSimplex
