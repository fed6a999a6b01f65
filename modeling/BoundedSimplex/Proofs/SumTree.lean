import Mathlib.Algebra.BigOperators.Field
import Mathlib.Data.List.Perm.Basic
import BoundedSimplex.Proofs.Folding
import BoundedSimplex.Proofs.Steps

/-!
# Which Sum a Row Becomes

What is added to what when a row is summed by workgroups.

The launches for a row hand over their sums through two buffers that take turns.
Each finds there what the one before has left, and behind it what was left by
earlier rows, which it must not add. In a workgroup that is not full, zero stands
in for the items that are missing.

A `SumTree` is a sum with its brackets, in which the items are numbers of
columns. Carried out on trees, the launches leave one tree, and it depends on the
width of a workgroup and on the number of columns alone. Each column occurs in it
once, for every width that is a power of two and every number of columns: each
launch hands every item to one item of one workgroup, and a workgroup, halving by
halving, adds each of its items once. So rounding apart the sum is the one that
is asked for, and with rounding it is that sum in these brackets.

## Main definitions

* `SumTree`: A sum with its brackets.
* `SumTree.ofRow`: The one the launches take of a row.
* `Parallel.product?`: A product of a row, in words of the buffers.

## Theorems

* `SumTree.eval_ofRow`: The sum of a row is the one along its tree.
* `SumTree.items_groups`, `SumTree.items_levels`: Launches lose and repeat nothing.
* `SumTree.items_ofRow`: Every column occurs once.
* `SumTree.eval_eq_sum`: Without rounding the brackets do not matter.
* `Parallel.update_sums_once`: What the engine writes as the value of a variable,
  whatever is in the two buffers.
* `Parallel.not_every_update_sums`: An engine that was not prepared writes nothing, and
  neither does one whose rows are too long.
-/

namespace BoundedSimplex

/-- What is added to what: numbered items, and zero where there is no item. Rounded addition
    is not associative, so this is as much as can be said of a sum without computing it. -/
inductive SumTree where
  | item (i : Nat)
  | zero
  | add (left right : SumTree)
deriving DecidableEq, Repr

namespace SumTree

instance : Add SumTree := ⟨add⟩

/-- The items that are added, from left to right. -/
def items : SumTree → List Nat
  | item i => [i]
  | zero => []
  | add left right => left.items ++ right.items

/-- What comes out for some items. -/
def eval {α : Type} [Scalar α] (x : Nat → α) : SumTree → α
  | item i => x i
  | zero => 0
  | add left right => left.eval x + right.eval x

/-- What a workgroup makes of its items. -/
def group (width count : Nat) (t : Nat → SumTree) (g : Nat) : SumTree :=
  Kernel.treeSum width.log2 fun l => if g * width + l < count then t (g * width + l) else zero

/-- What comes out of a launch for each of the counts. -/
def levels (width : Nat) : List Nat → (Nat → SumTree) → Nat → SumTree
  | [], t => t
  | n :: rest, t => levels width rest (group width n t)

/-- What the launches for a row of so many columns come to. The tree depends on the width of
    a workgroup and the number of columns only, not on the numbers. -/
def ofRow (width n : Nat) : SumTree :=
  let groups := ceilDiv n width
  let plan := (foldPlan width groups groups).getD []
  group width (lastCount width plan groups) (levels width plan (group width n item)) 0

variable {α : Type} [Scalar α] {width count n k : Nat} {t : Nat → SumTree} {x : Nat → α}

theorem eval_treeSum :
    (Kernel.treeSum k t).eval x = Kernel.treeSum k fun i => (t i).eval x := by
  induction k generalizing t with
  | zero => rfl
  | succ k ih => exact ih

/-- A tree of height `k` has the items of `2 ^ k` trees. -/
theorem items_treeSum :
    (Kernel.treeSum k t).items.Perm ((List.range (2 ^ k)).flatMap fun i => (t i).items) := by
  induction k generalizing t with
  | zero =>
      rw [Nat.pow_zero, List.range_one, List.flatMap_singleton]
      exact .refl _
  | succ k ih =>
      -- The first halving pairs every item with the one half a tree further on.
      refine (ih (t := fun i => t i + t (i + 2 ^ k))).trans ?_
      rw [Nat.pow_succ, Nat.mul_two, List.range_add, List.flatMap_append, List.flatMap_map]
      refine .trans ?_ (List.flatMap_append_perm _ _ _).symm
      simp only [Nat.add_comm]
      exact .refl _

theorem eval_group (g : Nat) :
    (group width count t g).eval x = groupTotal width count (fun i => (t i).eval x) g := by
  rw [group, eval_treeSum]
  refine Kernel.treeSum_congr fun l _ => ?_
  by_cases hl : g * width + l < count
  · rw [if_pos hl, if_pos hl]
  · rw [if_neg hl, if_neg hl]
    rfl

theorem eval_levels (plan : List Nat) :
    (fun i => (levels width plan t i).eval x) = foldLevels width plan fun i => (t i).eval x := by
  induction plan generalizing t with
  | nil => rfl
  | cons n rest ih =>
      refine ih.trans (congrArg (foldLevels width rest) (funext fun g => ?_))
      exact eval_group g

/-- The sum of a row is the sum along the tree, in any arithmetic. -/
theorem eval_ofRow : (ofRow width n).eval x = groupedSum width n x := by
  unfold ofRow groupedSum
  simp only [eval_group, eval_levels]
  rfl

theorem items_group (hwidth : floorPow2 width = width) (g : Nat) :
    (group width count t g).items.Perm ((List.range width).flatMap fun l =>
      if g * width + l < count then (t (g * width + l)).items else []) := by
  have hpow : 2 ^ width.log2 = width := by rwa [floorPow2, Nat.pow_eq] at hwidth
  refine items_treeSum.trans ?_
  rw [hpow]
  refine .of_eq (List.flatMap_congr fun l _ => ?_)
  by_cases hl : g * width + l < count
  · rw [if_pos hl, if_pos hl]
  · rw [if_neg hl, if_neg hl]
    rfl

/-- Items beyond the last one do not count. -/
theorem flatMap_below {m : Nat} (hle : n ≤ m) (f : Nat → List Nat) :
    ((List.range m).flatMap fun i => if i < n then f i else []) = (List.range n).flatMap f := by
  rcases Nat.exists_eq_add_of_le hle with ⟨rest, rfl⟩
  have hbelow : ((List.range n).flatMap fun i => if i < n then f i else [])
      = (List.range n).flatMap f :=
    List.flatMap_congr fun i hi => if_pos (List.mem_range.mp hi)
  have hbeyond : ((List.range rest).flatMap fun i => if n + i < n then f (n + i) else []) = [] :=
    List.flatMap_eq_nil_iff.mpr fun i _ => if_neg (by omega)
  rw [List.range_add, List.flatMap_append, List.flatMap_map, hbelow, hbeyond, List.append_nil]

/-- Workgroup by workgroup all items have their turn. -/
theorem flatMap_groups (groups : Nat) (f : Nat → List Nat) :
    ((List.range groups).flatMap fun g => (List.range width).flatMap fun l => f (g * width + l))
      = (List.range (groups * width)).flatMap f := by
  induction groups with
  | zero => rw [Nat.zero_mul, List.range_zero, List.flatMap_nil, List.flatMap_nil]
  | succ groups ih =>
      rw [List.range_succ, List.flatMap_append, ih, List.flatMap_singleton, Nat.succ_mul,
        List.range_add, List.flatMap_append, List.flatMap_map]

/-- A launch adds every item in one of its workgroups. The last workgroup may be short, and
    is filled up with zeros. -/
theorem items_groups (hpos : 0 < width) (hwidth : floorPow2 width = width) :
    ((List.range (ceilDiv count width)).flatMap fun g => (group width count t g).items).Perm
      ((List.range count).flatMap fun i => (t i).items) := by
  refine (List.Perm.flatMap_left _ fun g _ => items_group hwidth g).trans (.of_eq ?_)
  rw [flatMap_groups _ fun i => if i < count then (t i).items else []]
  exact flatMap_below (le_ceilDiv_mul hpos) _

/-- So do several launches, one after the other. The induction is on the counts, and what is
    left in the end fits one workgroup. -/
theorem items_levels (hpos : 0 < width) (hwidth : floorPow2 width = width) {plan : List Nat}
    (h : Folds width n plan) :
    lastCount width plan n ≤ width ∧
      ((List.range (lastCount width plan n)).flatMap fun i => (levels width plan t i).items).Perm
        ((List.range n).flatMap fun i => (t i).items) := by
  induction h generalizing t with
  | done hle => exact ⟨hle, .refl _⟩
  | @again n _ _ _ ih =>
      -- The sums of this launch are the items of the next one.
      rcases ih (t := group width n t) with ⟨hlast, hitems⟩
      exact ⟨hlast, hitems.trans (items_groups hpos hwidth)⟩

/-- Every column is added once. The order is not the one of the columns, so this is up to a
    permutation. -/
theorem items_ofRow (hpos : 0 < width) (hwidth : floorPow2 width = width)
    (hends : sumsEnd width n = true) : (ofRow width n).items.Perm (List.range n) := by
  rcases Option.isSome_iff_exists.mp hends with ⟨plan, hplan⟩
  rcases items_levels (t := group width n item) hpos hwidth (Folds.of_foldPlan hplan) with
    ⟨hlast, hlevels⟩
  unfold ofRow
  simp only [hplan, Option.getD_some]
  -- The last launch has one workgroup, which is wide enough for the sums that are left.
  refine (items_group hwidth 0).trans ?_
  simp only [Nat.zero_mul, Nat.zero_add]
  rw [flatMap_below hlast fun i => (levels width plan (group width n item) i).items]
  refine hlevels.trans ((items_groups hpos hwidth).trans (.of_eq ?_))
  exact List.flatMap_singleton' _

example : (ofRow 4 5).items = [0, 2, 1, 3, 4] := by decide

/-- Without rounding the shape of the tree does not matter, and neither do the zeros. -/
theorem eval_eq_sum (t : SumTree) (x : Nat → Rat) : t.eval x = (t.items.map x).sum := by
  induction t with
  | item i => exact (List.sum_singleton).symm
  | zero => rfl
  | add left right hl hr =>
      rw [items, List.map_append, List.sum_append, ← hl, ← hr]
      rfl

end SumTree

namespace Parallel

/-- Other words in a buffer. -/
def Desk.stored (w : Desk) (s : Slot) (ws : Words) : Desk :=
  w.withDevice { w.engine.device with
    host := { w.engine.device.host with
      memory := w.engine.device.host.memory.store (w.engine.handle.slot s).id ws } }

/-- The product of a coefficient with the value of the variable in its column. -/
def product? (w : Desk) (r c : Nat) : Option Binary32 := do
  let var ← word? w .colVar c
  let value ← word? w .values var.toNat
  let coeff ← word? w .tableau (r * w.engine.handle.numCols + c)
  return (⟨value⟩ : Binary32) * ⟨coeff⟩

variable {width : Nat} {w : Desk} {b : Board Binary32}

/-- What lies in the buffers of partial sums tells nothing about the board. -/
theorem Shows.stored (h : Shows width w b) {second : Bool} {ws : Words}
    (hlen : (w.engine.handle.slot (.sums second)).length ≤ ws.size) :
    Shows width (w.stored (.sums second) ws) b := by
  rcases h.stands.holds with ⟨a, c, hs, hw, hc⟩
  have hs' := hs.store (.sums second) (Device.Serves.mk (d := (w.stored (.sums second)
    ws).engine.device) hs.refuse rfl) hlen
  exact ⟨h.sized, h.basis, h.stands.fits, h.stands.numRows, h.stands.prepared, a, _, hs', hw,
    hc.set (.inr ⟨_, rfl⟩) ws⟩

/-- The products of a row are those of the board. -/
theorem Shows.product?_eq (h : Shows width w b) (hv : b.Valid) {r c : Nat} (hr : r < b.maxRows)
    (hc : c < b.numCols) : product? w r c = some (b.products r c) := by
  rcases h.exists_contents with ⟨cs, hcs, hword⟩
  have hcol := hcs.tables.colVar c hc
  rcases Words.index?_eq_some hcol with ⟨u, hu, hvar⟩
  have hvalue := h.word?_value (hv.basis.col c hc).1
  have hcell := h.word?_cell hr hc
  rw [← h.stands.fits.numCols] at hcell
  simp only [product?, hword .colVar c, hu, Option.bind_eq_bind, Option.bind_some, hvar, hvalue,
    hcell, Board.products, if_pos hc]
  rfl

/-- With workgroups of two items, or for a single column, an engine that was prepared writes
    as the value of the variable of a row that is taken the sum of the products of that row
    along one tree, in which every column occurs once. It does so whatever is in the buffers
    of partial sums, as long as the row, rounded up to whole workgroups, has fewer items
    than a machine word counts. Without rounding that is the sum of all products. -/
theorem update_sums_once {n k : Nat} (hwidth : width = 2 ^ k) (hn : 1 ≤ n)
    (hends : 2 ≤ width ∨ n = 1) (hfits : ceilDiv n width * width < UInt32.size) :
    (SumTree.ofRow width n).items.Perm (List.range n) ∧
    (∀ x : Nat → Rat, (SumTree.ofRow width n).eval x = ∑ c ∈ Finset.range n, x c) ∧
    ∀ (w : Desk) (b : Board Binary32), Shows width w b → b.Valid → b.numCols = n →
      ∀ first second : Words, (w.engine.handle.slot (.sums false)).length ≤ first.size →
        (w.engine.handle.slot (.sums true)).length ≤ second.size →
        (Engine.updateAssignment : Exec Desk Unit).Gives
          ((w.stored (.sums false) first).stored (.sums true) second) fun _ w' =>
            ∀ r < b.numRows, ∃ (v : Nat) (x : Nat → Binary32), w.basis.rowVar? r = some v ∧
              (∀ c < n, product? w r c = some (x c)) ∧
              word? w' .values v = some ((SumTree.ofRow width n).eval x).bits := by
  have hpow : floorPow2 width = width := by
    rw [floorPow2, hwidth, Nat.log2_two_pow, Nat.pow_eq]
  have hpos : 0 < width := by
    rw [hwidth]
    exact Nat.two_pow_pos k
  have hsums := sumsEnd_eq_true hpos hends
  -- The leaves are the columns in order, with padding that counts for nothing.
  have hitems := SumTree.items_ofRow hpos hpow hsums
  refine ⟨hitems, fun x => ?_, ?_⟩
  · rw [SumTree.eval_eq_sum, (hitems.map x).sum_eq, ← Multiset.sum_coe, ← Multiset.map_coe]
    rfl
  · rintro w b hw hv rfl first second hfirst hsecond
    -- The words that were put into the partial sums are not part of what the engine shows, so it
    -- shows the same board.
    have hfree := sumObstacle_eq_none_iff.mpr ⟨hfits, hsums⟩
    refine ((follows width).update _ b ((hw.stored hfirst).stored hsecond) hv hfree).mono
      fun _ w' hw' r hr => ?_
    have hrm := Nat.lt_of_lt_of_le hr hv.numRows_le
    rcases hv.basis.row r hrm with ⟨hlt, hplace, hrole⟩
    refine ⟨b.basis.inRow r, b.products r, ?_, fun c hc => hw.product?_eq hv hrm hc, ?_⟩
    · rw [hw.basis]
      exact hv.basis.rowVar?_eq hrm
    · rw [hw'.word?_value hlt, Board.value_recomputed_basic hlt hrole (by rw [hplace]; exact hr),
        hplace, SumTree.eval_ofRow]

/-- Nine columns, in workgroups of two items, are summed in four launches. What is
    in the buffers of partial sums beforehand is no number. -/
theorem update_sums_once_nine : ∃ w : Desk,
    w.engine.handle.geometry = .ofDevice (HostDevice.idle ⟨2, 1⟩).info none ∧
      (Engine.updateAssignment : Exec Desk Unit).Gives
        ((w.stored (.sums false) (Array.replicate 5 0x7fc00000)).stored (.sums true)
          (Array.replicate 5 0x7fc00000)) fun _ w' =>
            ∃ (v : Nat) (x : Nat → Binary32), w.basis.rowVar? 0 = some v ∧
              (∀ c < 9, product? w 0 c = some (x c)) ∧
              word? w' .values v = some ((SumTree.ofRow 2 9).eval x).bits := by
  have hrows : (Problem.ofCalls (α := Binary32) 1 9
      [.constraint (Array.replicate 9 1)]).rows.length ≤ 1 := by decide
  have hv := Problem.valid_board hrows Config.standard.tolerance
  rcases exists_shows (.idle ⟨2, 1⟩) Config.standard (by decide) (by decide) (by decide) (by decide)
    (by decide) (by decide) hv.basis with ⟨w, hgeometry, hw⟩
  have hwidth : w.engine.handle.geometry.workgroup = 2 := by
    rw [hgeometry]
    decide
  rw [hwidth] at hw
  -- Nine columns in groups of two are five partial sums.
  have hlength : ∀ second, (w.engine.handle.slot (.sums second)).length = 5 :=
    fun second => hw.stands.fits.elements (.sums second)
  refine ⟨w, hgeometry, ?_⟩
  refine ((update_sums_once (k := 1) (by decide) (by decide) (by decide) (by decide)).2.2 w _ hw
    (.mk hv.basis hv.numRows_le hv.zero hv.spare) rfl _ _ ?_ ?_).mono
    fun _ w' h => h 0 (by decide)
  · rw [hlength]
    exact Nat.le_of_eq rfl
  · rw [hlength]
    exact Nat.le_of_eq rfl

/-- Both conditions are needed, that the engine was prepared and that the rounded row has
    fewer items than a word counts. An engine that was not prepared refuses to recompute a
    row of one column. In a row that is as long as rows can be, the items no longer fit. -/
theorem not_every_update_sums :
    (∃ w : Desk, w.engine.handle.geometry = .ofDevice (HostDevice.idle ⟨2, 1⟩).info none ∧
      Ready 2 w (.zeroRow 1) ∧
      (Engine.updateAssignment : Exec Desk Unit).Stops w (.error .notPrepared)
        fun w' => w' = w) ∧
    ∃ w : Desk, w.engine.handle.geometry = .ofDevice (HostDevice.idle ⟨256, 1⟩).info none ∧
      Shows 256 w (.zeroRow (2 ^ 32 - 2)) ∧
      (Engine.updateAssignment : Exec Desk Unit).Stops w .overflow fun _ => True := by
  constructor
  · rcases exists_ready (b := .zeroRow 1) (.idle ⟨2, 1⟩) Config.standard (by decide) (by decide)
      (by decide) (by decide) (by decide) (by decide) with ⟨w, hgeometry, hw⟩
    have hwidth : w.engine.handle.geometry.workgroup = 2 := by
      rw [hgeometry]
      decide
    rw [hwidth] at hw
    exact ⟨w, hgeometry, hw, Exec.Yields.state.stops (unprepared_stops hw.prepared _)⟩
  · exact exists_overflow

end Parallel

end BoundedSimplex
