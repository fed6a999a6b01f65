import BoundedSimplex.Engine.Geometry
import Mathlib.Tactic.Ring

/-!
# Widths of Launches

Which widths come out for a device and a cap, whatever the two are.

The three limits need not be powers of two, and the least of them need not be
reached. What is taken is the largest power of two below it. On a machine word
that is one bit, shifted as far as the leading zeros leave room for, and the two
agree on every word but zero. A square workgroup is found by doubling its side,
and the side that is left is again the largest power of two that is possible. The
loop multiplies two numbers of its own making in each round. `Tries` are the
sides that it comes by, and the products it looks at stay small on each of them.

The chunk is a multiple of the width, and whether it fits a machine word is up to the
device. If it does, all the widths do. `Geometry.Sound` is what the launches of a
search rely on, whatever the device reports.

## Main definitions

* `IsLargestPow2`: The largest power of two that a condition allows.
* `Tries`: The sides that are doubled.
* `Geometry.limit`: The least of the three limits.
* `Geometry.Widest`: What the widths have to be.
* `Geometry.Sound`: What the launches of a search rely on.
* `Geometry.InWords`: What is counted in words fits them.

## Theorems

* `isLargestPow2_floorPow2`, `Tries.ends`: The two widths.
* `shiftLeft_clz`: The same by leading zeros.
* `Tries.next_square_le`: No product of the loop is large.
* `Geometry.widest_ofDevice`: The widths for any device and cap.
* `Geometry.sound_ofDevice`: They can be relied on if the chunk fits.
-/

namespace BoundedSimplex

/-- The largest power of two that a condition allows. There is at most one such number, so
    this determines it. -/
structure IsLargestPow2 (Allowed : Nat → Prop) (n : Nat) : Prop where
  pow : ∃ k, n = 2 ^ k
  allowed : Allowed n
  largest : ∀ k, Allowed (2 ^ k) → 2 ^ k ≤ n

/-! ### Rounding down -/

theorem floorPow2_two_pow (k : Nat) : floorPow2 (2 ^ k) = 2 ^ k := by
  rw [floorPow2, Nat.log2_two_pow, Nat.pow_eq]

theorem isLargestPow2_floorPow2 {n : Nat} (h : n ≠ 0) : IsLargestPow2 (· ≤ n) (floorPow2 n) where
  pow := ⟨n.log2, rfl⟩
  allowed := floorPow2_le h
  largest _ hk := Nat.pow_le_pow_right Nat.two_pos ((Nat.le_log2 h).mpr hk)

/-- The highest bit of a word stands behind its leading zeros. So to count these is another
    way to the largest power of two. -/
theorem shiftLeft_clz {x : BitVec 32} (h : x ≠ 0#32) :
    (1#32 <<< (31 - x.clz.toNat)).toNat = floorPow2 x.toNat := by
  have hne : x.toNat ≠ 0 := fun hzero => h (BitVec.eq_of_toNat_eq (hzero.trans rfl))
  have hle := BitVec.two_pow_sub_clz_le_toNat_of_ne_zero (by decide) h
  have hlt := @BitVec.toNat_lt_two_pow_sub_clz 32 x
  -- A word that is not zero has a bit that is set, so it has fewer than 32 leading zeros.
  have hclz : x.clz.toNat < 32 := by
    by_contra hge
    rw [Nat.sub_eq_zero_of_le (Nat.le_of_not_lt hge)] at hlt
    omega
  -- The place of that bit is the binary logarithm.
  have hlog : x.toNat.log2 = 31 - x.clz.toNat := by
    refine (Nat.log2_eq_iff hne).mpr ⟨hle, ?_⟩
    rwa [show 31 - x.clz.toNat + 1 = 32 - x.clz.toNat by omega]
  rw [floorPow2, hlog, BitVec.toNat_shiftLeft, Nat.shiftLeft_eq]
  have hsmall : 2 ^ (31 - x.clz.toNat) < 2 ^ 32 := Nat.pow_lt_pow_right (by decide) (by omega)
  rw [BitVec.toNat_one (by decide), Nat.one_mul, Nat.mod_eq_of_lt hsmall]
  rfl

/-! ### Doubling -/

/-- The sides that are doubled, one after the other. The width of a workgroup is compared
    with the square of the next one, and the numbers that are multiplied for this have to be
    looked at as well. -/
inductive Tries (width : Nat) : Nat → Prop where
  | one : Tries width 1
  | twice {side : Nat} : Tries width side → side * 2 * (side * 2) ≤ width → Tries width (side * 2)

namespace Tries

variable {width side : Nat}

theorem pow (h : Tries width side) : ∃ k, side = 2 ^ k := by
  induction h with
  | one => exact ⟨0, rfl⟩
  | twice _ _ ih =>
      rcases ih with ⟨k, rfl⟩
      exact ⟨k + 1, rfl⟩

theorem square_le (h : Tries width side) (hwidth : 1 ≤ width) : side * side ≤ width := by
  cases h with
  | one => exact hwidth
  | twice _ hle => exact hle

/-- The next product is at most four times as large as the width. This is why the loop stays
    within a word. -/
theorem next_square_le (h : Tries width side) (hwidth : 1 ≤ width) :
    side * 2 * (side * 2) ≤ 4 * width := by
  have hle := Nat.mul_le_mul_left 4 (h.square_le hwidth)
  calc side * 2 * (side * 2) = 4 * (side * side) := by ring
    _ ≤ 4 * width := hle

/-- The loop ends at one of its sides, and that is the widest. Powers of two are all it can
    choose from. -/
theorem ends (h : Tries width side) (hwidth : 1 ≤ width) :
    Tries width (widestSide width side) ∧
      IsLargestPow2 (fun n => n * n ≤ width) (widestSide width side) := by
  fun_induction widestSide width side with
  | case1 side hnext ih => exact ih (h.twice hnext.2)
  | case2 side hnext =>
      refine ⟨h, h.pow, h.square_le hwidth, fun k hk => ?_⟩
      rcases h.pow with ⟨j, rfl⟩
      -- A larger power would be at least the double, which does not fit.
      refine Nat.le_of_not_lt fun hlt => hnext ⟨Nat.pos_iff_ne_zero.mp (Nat.two_pow_pos j), ?_⟩
      have hle : 2 ^ j * 2 ≤ 2 ^ k := by
        rw [← Nat.pow_succ]
        exact Nat.pow_le_pow_right Nat.two_pos ((Nat.pow_lt_pow_iff_right Nat.one_lt_two).mp hlt)
      exact Nat.le_trans (Nat.mul_le_mul hle hle) hk

end Tries

/-! ### The widths of a device -/

/-- The least of the limits of the device, the kernels and the caller. A caller who names
    none does not count. -/
def Geometry.limit (info : DeviceInfo) (cap : Option Nat) : Nat :=
  min (min info.maxWorkgroupSize maxKernelWorkgroup) (cap.getD maxKernelWorkgroup)

/-- The widths are the largest ones that are possible, and working them out takes
    no more than a word. -/
structure Geometry.Widest (info : DeviceInfo) (cap : Option Nat) (g : Geometry) : Prop where
  workgroup : IsLargestPow2 (· ≤ limit info cap) g.workgroup
  bit : g.workgroup = (1#32 <<< (31 - (BitVec.ofNat 32 (limit info cap)).clz.toNat)).toNat
  tile : IsLargestPow2 (fun n => n * n ≤ g.workgroup) g.tile
  loop : Tries g.workgroup g.tile ∧
    ∀ side, Tries g.workgroup side → side * 2 * (side * 2) < UInt32.size
  chunk : ∃ units, 0 < units ∧ g.chunk = units * g.workgroup

variable {info : DeviceInfo} {cap : Option Nat}

theorem Geometry.limit_pos (hinfo : info.maxWorkgroupSize ≠ 0) (hcap : cap ≠ some 0) :
    0 < limit info cap := by
  have hcap' : cap.getD maxKernelWorkgroup ≠ 0 := by
    cases cap with
    | none => decide
    | some n => exact fun hn => hcap (congrArg some hn)
  have hmax : maxKernelWorkgroup ≠ 0 := by decide
  rw [limit]
  omega

theorem Geometry.limit_le : limit info cap ≤ info.maxWorkgroupSize ∧
    limit info cap ≤ maxKernelWorkgroup := by
  rw [limit]
  omega

theorem Geometry.widest_ofDevice (hinfo : info.maxWorkgroupSize ≠ 0) (hcap : cap ≠ some 0) :
    (ofDevice info cap).Widest info cap := by
  have hpos := limit_pos hinfo hcap
  -- The limit is at most that of the kernels, so it fits a word and the bits can be counted.
  have hsmall : limit info cap < UInt32.size :=
    Nat.lt_of_le_of_lt limit_le.2 (show maxKernelWorkgroup < UInt32.size by decide)
  have hwidth : 1 ≤ (ofDevice info cap).workgroup := Nat.two_pow_pos _
  have hle := floorPow2_le (Nat.pos_iff_ne_zero.mp hpos)
  rcases Tries.one.ends hwidth with ⟨htried, hwidest⟩
  refine ⟨isLargestPow2_floorPow2 (Nat.pos_iff_ne_zero.mp hpos), ?_, hwidest,
    ⟨htried, fun side hside => ?_⟩, max info.computeUnits 1, by omega, rfl⟩
  · have hnat : (BitVec.ofNat 32 (limit info cap)).toNat = limit info cap :=
      (BitVec.toNat_ofNat _ _).trans (Nat.mod_eq_of_lt hsmall)
    have hne : BitVec.ofNat 32 (limit info cap) ≠ 0#32 := fun hzero => by
      rw [hzero] at hnat
      exact absurd hnat (Nat.ne_of_lt hpos)
    rw [shiftLeft_clz hne, hnat]
    rfl
  -- Four times the largest workgroup still fits a word, so the search for the tile does not wrap
  -- around.
  · have hnext := hside.next_square_le hwidth
    have hmax : 4 * maxKernelWorkgroup < UInt32.size := by decide
    have hfloor : (ofDevice info cap).workgroup ≤ maxKernelWorkgroup :=
      Nat.le_trans hle limit_le.2
    omega

example : (Geometry.ofDevice ⟨.host, "", 100, 3⟩ (some 37)).workgroup = 32 ∧
    (Geometry.ofDevice ⟨.host, "", 100, 3⟩ (some 37)).tile = 4 ∧
    (Geometry.ofDevice ⟨.host, "", 100, 3⟩ (some 37)).chunk = 96 := by
  decide +kernel

/-! ### What the launches rely on -/

/-- What the launches of a search rely on. It is settled when the engine is made and
    concerns the device only, not the system. -/
structure Geometry.Sound (g : Geometry) (limit : Nat) : Prop where
  pos : 0 < g.workgroup
  pow : floorPow2 g.workgroup = g.workgroup
  le : g.workgroup ≤ limit
  tile : 0 < g.tile ∧ g.tile * g.tile ≤ g.workgroup
  chunk : ∃ units, 0 < units ∧ g.chunk = units * g.workgroup
  fits : g.chunk < UInt32.size

namespace Geometry.Sound

variable {g : Geometry} {limit : Nat}

theorem chunk_pos (h : g.Sound limit) : 0 < g.chunk := by
  rcases h.chunk with ⟨units, hunits, hchunk⟩
  rw [hchunk]
  exact Nat.mul_pos hunits h.pos

/-- A workgroup is no larger than a chunk. -/
theorem workgroup_lt (h : g.Sound limit) : g.workgroup < UInt32.size := by
  rcases h.chunk with ⟨units, hunits, hchunk⟩
  have hle := Nat.le_mul_of_pos_left g.workgroup hunits
  rw [← hchunk] at hle
  exact Nat.lt_of_le_of_lt hle h.fits

/-- A side is no larger than its square. -/
theorem tile_lt (h : g.Sound limit) : g.tile < UInt32.size :=
  Nat.lt_of_le_of_lt (Nat.le_trans (Nat.le_mul_of_pos_left g.tile h.tile.1) h.tile.2)
    h.workgroup_lt

end Geometry.Sound

/-- What is counted in words fits them: the variables of a chunk, and the items of a row
    of so many columns that is rounded up to whole workgroups. These are the only two
    products that an engine keeps in a word of 32 bits, so nothing else can overflow. -/
structure Geometry.InWords (g : Geometry) (numCols : Nat) : Prop where
  chunk : g.chunk < UInt32.size
  row : ceilDiv numCols g.workgroup * g.workgroup < UInt32.size

instance (g : Geometry) (numCols : Nat) : Decidable (g.InWords numCols) :=
  decidable_of_iff (g.chunk < UInt32.size ∧ ceilDiv numCols g.workgroup * g.workgroup < UInt32.size)
    ⟨fun h => ⟨h.1, h.2⟩, fun h => ⟨h.chunk, h.row⟩⟩

/-- The largest widths that are possible will do. -/
theorem Geometry.Widest.sound {g : Geometry} (h : g.Widest info cap)
    (hfits : g.chunk < UInt32.size) :
    g.Sound (limit info cap) := by
  rcases h.workgroup.pow with ⟨k, hk⟩
  rcases h.tile.pow with ⟨j, hj⟩
  refine ⟨?_, ?_, h.workgroup.allowed, ⟨?_, h.tile.allowed⟩, h.chunk, hfits⟩
  · rw [hk]
    exact Nat.two_pow_pos k
  · rw [hk, floorPow2_two_pow]
  · rw [hj]
    exact Nat.two_pow_pos j

theorem Geometry.sound_ofDevice (hinfo : info.maxWorkgroupSize ≠ 0) (hcap : cap ≠ some 0)
    (hfits : (ofDevice info cap).chunk < UInt32.size) :
    (ofDevice info cap).Sound info.maxWorkgroupSize := by
  have h := (Geometry.widest_ofDevice hinfo hcap).sound hfits
  exact ⟨h.pos, h.pow, Nat.le_trans h.le limit_le.1, h.tile, h.chunk, hfits⟩

end BoundedSimplex
