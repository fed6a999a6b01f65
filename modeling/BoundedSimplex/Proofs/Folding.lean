import BoundedSimplex.Proofs.Pivots
import Mathlib.Data.Nat.Log

/-!
# Whether Sums of Partial Sums End

A row that is longer than a workgroup is summed in several launches, and the
number of launches depends on the width of a workgroup alone.

The first launch leaves one partial sum for each workgroup. As long as there are
more of them than a workgroup has items, a further launch sums those. With two
items to a workgroup there are fewer of them each time, and their number is
known beforehand: it is the number of times the width has to be multiplied with
itself to reach the length of the row, less two. With a single item there are as
many as before, and a row of two columns is summed for ever.

A width of one is not out of the way. A caller may ask for it, and a device that
runs no wider workgroups has no other. The engine works out the counts before it
launches anything, with a number of steps that is enough if any is.

Before all that the engine rounds the row up to whole workgroups, and keeps the number
of its items in a machine word. A few of the longest rows have too many.

## Main definitions

* `Folds`: The launches that sum partial sums, one for each of some counts.
* `Board.zeroRow`: A board with one row, as long as one likes.

## Theorems

* `Folds.of_foldPlan`, `sumsEnd_iff`: The plan of an engine is made of these counts,
  and there is one if they end.
* `Folds.length_eq`: How many there are.
* `exists_folds_iff`: When there is an end.
* `Parallel.folds_of_geometry`: The same for every device and every configuration,
  and what the engine does.
* `Parallel.exists_overflow`: The longest row is too long.
-/

namespace BoundedSimplex

/-- Some partial sums are summed until one workgroup can sum what is left. Begun with `n` of
    them, that is a launch for each of the counts. There is no such list if a launch leaves
    as many as there were, and then the engine never ends. -/
inductive Folds (width : Nat) : (n : Nat) → (counts : List Nat) → Prop where
  | done {n : Nat} : n ≤ width → Folds width n []
  | again {n : Nat} {counts : List Nat} : width < n → Folds width (ceilDiv n width) counts →
      Folds width n (n :: counts)

namespace Folds

variable {width n steps : Nat} {counts : List Nat}

/-- A plan is what the launches are made for. It is computed with as much fuel as there are
    items, which is enough if there is an end at all. -/
theorem of_foldPlan (h : foldPlan width steps n = some counts) : Folds width n counts := by
  induction steps generalizing n counts with
  | zero =>
      rw [foldPlan] at h
      by_cases hle : n ≤ width
      · rw [if_pos hle] at h
        cases h
        exact .done hle
      · rw [if_neg hle] at h
        cases h
  | succ steps ih =>
      rw [foldPlan] at h
      by_cases hle : n ≤ width
      · rw [if_pos hle] at h
        cases h
        exact .done hle
      · rw [if_neg hle] at h
        rcases Option.map_eq_some_iff.mp h with ⟨rest, hrest, rfl⟩
        exact .again (Nat.lt_of_not_le hle) (ih hrest)

/-- With one item to a workgroup only a single partial sum is an end. -/
theorem le_one (h : Folds 1 n counts) : n ≤ 1 := by
  induction h with
  | done hle => exact hle
  | again _ _ ih => rwa [ceilDiv_one] at ih

/-- How many launches there are. -/
theorem length_eq (hwidth : 0 < width) (h : Folds width n counts) :
    counts.length = Nat.clog width n - 1 := by
  induction h with
  | @done n hle =>
      -- One multiplication reaches what one workgroup can sum.
      have hclog : Nat.clog width n ≤ 1 := Nat.clog_le_of_le_pow (by rwa [Nat.pow_one])
      rw [List.length_nil]
      omega
  | @again n counts hlt hrest ih =>
      by_cases htwo : 2 ≤ width
      · have hceil : (n + width - 1) / width = ceilDiv n width := by
          rw [ceilDiv_eq hwidth, Nat.add_sub_assoc hwidth]
        have hmany : 1 < ceilDiv n width := by
          rw [lt_ceilDiv_iff hwidth, Nat.one_mul]
          exact hlt
        have hpos := Nat.clog_pos htwo hmany
        rw [List.length_cons, ih, Nat.clog_of_two_le htwo (show 2 ≤ n by omega), hceil]
        omega
      · have hone : width = 1 := by omega
        subst hone
        exact absurd (Folds.again hlt hrest).le_one (by omega)

end Folds

/-- There is an end exactly if a workgroup has two items, or there is a single column.
    Workgroups of two items at least halve the sums, and workgroups of one leave as many as
    there are. -/
theorem exists_folds_iff {width numCols : Nat} (hwidth : 0 < width) (hcols : 0 < numCols) :
    (∃ counts, Folds width (ceilDiv numCols width) counts) ↔ 2 ≤ width ∨ numCols = 1 := by
  constructor
  · rintro ⟨counts, h⟩
    by_cases htwo : 2 ≤ width
    · exact .inl htwo
    · have hone : width = 1 := by omega
      subst hone
      have hle := h.le_one
      rw [ceilDiv_one] at hle
      exact .inr (by omega)
  · intro h
    rcases Option.isSome_iff_exists.mp (sumsEnd_eq_true hwidth h) with ⟨counts, hplan⟩
    exact ⟨counts, .of_foldPlan hplan⟩

/-- The engine finds the end if there is one. This depends on the width and the number of
    columns alone, and is the same for all rows and at all times. -/
theorem sumsEnd_iff {width numCols : Nat} (hwidth : 0 < width) (hcols : 0 < numCols) :
    sumsEnd width numCols = true ↔ ∃ counts, Folds width (ceilDiv numCols width) counts := by
  constructor
  · intro h
    rcases Option.isSome_iff_exists.mp h with ⟨counts, hplan⟩
    exact ⟨counts, .of_foldPlan hplan⟩
  · intro h
    exact sumsEnd_eq_true hwidth ((exists_folds_iff hwidth hcols).mp h)

/-- From the columns on, there are two multiplications less. -/
theorem Folds.length_of_columns {width numCols : Nat} {counts : List Nat} (hwidth : 0 < width)
    (hcols : 0 < numCols) (h : Folds width (ceilDiv numCols width) counts) :
    counts.length = Nat.clog width numCols - 2 := by
  rw [h.length_eq hwidth]
  rcases (exists_folds_iff hwidth hcols).mp ⟨counts, h⟩ with htwo | rfl
  -- The logarithm counts the multiplications from one group up to the columns. The first is the
  -- launch on the columns and the last the one that completes the sum, so the folds are the rest.
  · by_cases hmany : 2 ≤ numCols
    · have hceil : (numCols + width - 1) / width = ceilDiv numCols width := by
        rw [ceilDiv_eq hwidth, Nat.add_sub_assoc hwidth]
      rw [Nat.clog_of_two_le htwo hmany, hceil]
      omega
    · have hone : numCols = 1 := by omega
      subst hone
      have hle := @ceilDiv_le 1 width
      rw [Nat.clog_of_right_le_one hle, Nat.clog_one_right]
  · have hle := @ceilDiv_le 1 width
    rw [Nat.clog_of_right_le_one hle, Nat.clog_one_right]

example : foldPlan 2 5 (ceilDiv 9 2) = some [5, 3] := by decide

/-- A workgroup has two items exactly if neither the device nor the caller forbids
    it. -/
theorem Geometry.two_le_workgroup_iff {info : DeviceInfo} {cap : Option Nat}
    (hinfo : info.maxWorkgroupSize ≠ 0) (hcap : cap ≠ some 0) :
    2 ≤ (Geometry.ofDevice info cap).workgroup ↔ 2 ≤ info.maxWorkgroupSize ∧ cap ≠ some 1 := by
  have hcap' : 2 ≤ cap.getD maxKernelWorkgroup ↔ cap ≠ some 1 := by
    cases cap with
    | none => decide
    | some n =>
        have hn : n ≠ 0 := fun heq => hcap (congrArg some heq)
        rw [Option.getD_some, ne_eq, Option.some.injEq]
        omega
  have hmax : 2 ≤ maxKernelWorkgroup := by decide
  -- None of the three limits is zero, so the power of two below their minimum is one only if the
  -- minimum is.
  have hmin : min (min info.maxWorkgroupSize maxKernelWorkgroup) (cap.getD maxKernelWorkgroup)
      ≠ 0 := by
    cases cap with
    | none =>
        rw [Option.getD_none]
        omega
    | some n =>
        have hn : n ≠ 0 := fun heq => hcap (congrArg some heq)
        rw [Option.getD_some]
        omega
  have hle := floorPow2_le hmin
  have hlt := lt_two_mul_floorPow2
    (min (min info.maxWorkgroupSize maxKernelWorkgroup) (cap.getD maxKernelWorkgroup))
  show 2 ≤ floorPow2 _ ↔ _
  rw [← hcap']
  omega

namespace Parallel

/-- On every device and for every configuration, the sums of a row end if workgroups have
    two items or there is a single column, after so many launches, and otherwise they never
    do. As they end or not, so does the engine, unless the row is longer than a word can
    count once it is rounded up to whole workgroups. Workgroups of one item round up
    nothing, so the engine that never ends is not stopped by this. -/
theorem folds_of_geometry (info : DeviceInfo) (config : Config Binary32) (numCols : Nat)
    (hvalid : config.validate = .ok ()) (hinfo : 1 ≤ info.maxWorkgroupSize)
    (hcols : 1 ≤ numCols) {width : Nat}
    (hwidth : width = (Geometry.ofDevice info config.maxWorkgroupSize).workgroup) :
    ((∃ counts, Folds width (ceilDiv numCols width) counts) ↔
      (2 ≤ info.maxWorkgroupSize ∧ config.maxWorkgroupSize ≠ some 1) ∨ numCols = 1) ∧
    (∀ counts, Folds width (ceilDiv numCols width) counts →
      counts.length = Nat.clog width numCols - 2) ∧
    ∀ (w : Desk) (b : Board Binary32), Shows width w b → b.Valid → b.numCols = numCols →
      0 < b.numRows →
      ((∃ counts, Folds width (ceilDiv numCols width) counts) →
        ceilDiv numCols width * width < UInt32.size →
        (Engine.updateAssignment : Exec Desk Unit).Gives w fun _ w' =>
          Shows width w' (b.recomputed (groupedSum width))) ∧
      ((¬ ∃ counts, Folds width (ceilDiv numCols width) counts) →
        (Engine.updateAssignment : Exec Desk Unit).Stops w .endless fun _ => True) ∧
      (UInt32.size ≤ ceilDiv numCols width * width →
        (Engine.updateAssignment : Exec Desk Unit).Stops w .overflow fun _ => True) := by
  have hcap := (Solver.validate_eq_ok hvalid).2.2
  have hinfo' : info.maxWorkgroupSize ≠ 0 := by omega
  have hpos : 0 < width := by
    rw [hwidth]
    exact Nat.two_pow_pos _
  refine ⟨?_, fun counts h => h.length_of_columns hpos hcols, ?_⟩
  · rw [exists_folds_iff hpos hcols, hwidth, Geometry.two_le_workgroup_iff hinfo' hcap]
  · rintro w b hw hv rfl hrows
    rw [← sumsEnd_iff hpos hcols]
    refine ⟨fun hends hfits => ?_, fun hnot => ?_, fun hover => ?_⟩
    · exact (follows width).update w b hw hv (sumObstacle_eq_none_iff.mpr ⟨hfits, hends⟩)
    -- The sums fail to end in workgroups of one item only, and those round up nothing.
    · have hone : width = 1 := by
        rw [sumsEnd_iff hpos hcols, exists_folds_iff hpos hcols] at hnot
        omega
      have hfits : ¬ UInt32.size ≤ ceilDiv b.numCols width * width := by
        rw [hone, ceilDiv_one, Nat.mul_one]
        exact Nat.not_le_of_lt hw.stands.fits.numCols_lt
      have hstuck : sumObstacle width b.numCols = some .endless := by
        rw [sumObstacle, if_neg hfits, if_neg hnot]
      exact (follows width).updateStuck w b .endless hw hv hstuck hrows
    · exact (follows width).updateStuck w b .overflow hw hv (if_pos hover) hrows

/-- In workgroups of one item two columns are not summed, and an engine that is told
    to recompute a row of them does not return. -/
theorem folds_of_geometry_single :
    (¬ ∃ counts, Folds 1 (ceilDiv 2 1) counts) ∧
      ∃ w : Desk, w.engine.handle.geometry = .ofDevice (HostDevice.idle ⟨1, 1⟩).info none ∧
        (Engine.updateAssignment : Exec Desk Unit).Stops w .endless fun _ => True := by
  have hrows : (Problem.ofCalls (α := Binary32) 1 2 [.constraint #[1, 1]]).rows.length ≤ 1 := by
    decide
  -- Any board with two columns and a row would do; this one comes from a single constraint.
  have hv := Problem.valid_board hrows Config.standard.tolerance
  rcases exists_shows (.idle ⟨1, 1⟩) Config.standard (by decide) (by decide) (by decide) (by decide)
    (by decide) (by decide) hv.basis with ⟨w, hgeometry, hw⟩
  have hone : 1 = (Geometry.ofDevice (HostDevice.idle ⟨1, 1⟩).info
      Config.standard.maxWorkgroupSize).workgroup := by decide
  rw [hgeometry, ← hone] at hw
  rcases folds_of_geometry (HostDevice.idle ⟨1, 1⟩).info Config.standard 2 (by decide) (by decide)
    (by decide) hone with ⟨hiff, -, hengine⟩
  have hnot : ¬ ∃ counts, Folds 1 (ceilDiv 2 1) counts := by
    rw [hiff]
    decide
  have hvalid := Board.Valid.mk hv.basis hv.numRows_le hv.zero hv.spare
  exact ⟨hnot, w, hgeometry, (hengine w _ hw hvalid rfl (by decide)).2.1 hnot⟩

/-- A caller may ask for workgroups of one item, and then the two partial sums of
    two columns are summed for ever. -/
theorem not_folds_single : ¬ ∀ (info : DeviceInfo) (config : Config Binary32) (numCols : Nat),
    config.validate = .ok () → 1 ≤ info.maxWorkgroupSize → 1 ≤ numCols →
    ∃ counts, Folds (Geometry.ofDevice info config.maxWorkgroupSize).workgroup
      (ceilDiv numCols (Geometry.ofDevice info config.maxWorkgroupSize).workgroup) counts := by
  intro h
  rcases h (HostDevice.idle ⟨1, 1⟩).info Config.standard 2 (by decide) (by decide) (by decide) with
    ⟨counts, hfolds⟩
  have hwidth : (Geometry.ofDevice (HostDevice.idle ⟨1, 1⟩).info
      Config.standard.maxWorkgroupSize).workgroup = 1 := by decide
  rw [hwidth] at hfolds
  exact absurd hfolds.le_one (by decide)

end Parallel

/-! ### Rows that are too long -/

/-- A board whose single row is taken and holds zeros only. -/
def Board.zeroRow (n : Nat) : Board Binary32 where
  maxRows := 1
  numRows := 1
  numCols := n
  coeff := fun _ _ => 0
  basis := .ofDimensions 1 n
  interval := fun _ => .nonnegative
  value := fun _ => 0
  role := .initial n
  tolerance := Config.standard.tolerance

theorem Board.valid_zeroRow (n : Nat) : (Board.zeroRow n).Valid where
  basis := Basis.matches_ofDimensions 1 n
  numRows_le := Nat.le_refl 1
  zero := fun _ hfree hr => absurd hr (Nat.not_lt_of_le hfree)
  spare := fun _ hfree hr => absurd hr (Nat.not_lt_of_le hfree)

/-- Beside its slack a row can have `2 ^ 32 - 2` columns. Rounded up to workgroups of 256
    items they are one more than the largest word, and an engine that is told to
    recompute the row stops where it counts them. -/
theorem Parallel.exists_overflow : ∃ w : Desk,
    w.engine.handle.geometry = .ofDevice (HostDevice.idle ⟨256, 1⟩).info none ∧
      Shows 256 w (.zeroRow (2 ^ 32 - 2)) ∧
      (Engine.updateAssignment : Exec Desk Unit).Stops w .overflow fun _ => True := by
  -- The board is there as a function only: no tableau of this size is built.
  have hv := Board.valid_zeroRow (2 ^ 32 - 2)
  have hcols : (Board.zeroRow (2 ^ 32 - 2)).numCols ≠ 0 := by decide
  have hsize : 1 + (2 ^ 32 - 2) < UInt32.size := by decide
  rcases exists_shows (.idle ⟨256, 1⟩) Config.standard (by decide) (by decide) (by decide)
    Nat.one_ne_zero hcols hsize hv.basis with ⟨w, hgeometry, hw⟩
  have hwidth : w.engine.handle.geometry.workgroup = 256 := by
    rw [hgeometry]
    decide
  rw [hwidth] at hw
  have hobstacle : sumObstacle 256 (2 ^ 32 - 2) = some .overflow := if_pos (by decide)
  exact ⟨w, hgeometry, hw, (follows 256).updateStuck w _ .overflow hw hv hobstacle Nat.one_pos⟩

end BoundedSimplex
