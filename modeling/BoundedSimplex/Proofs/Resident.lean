import BoundedSimplex.Proofs.Board
import BoundedSimplex.Proofs.Cells
import BoundedSimplex.Proofs.Scans
import BoundedSimplex.Proofs.Widths
import BoundedSimplex.Proofs.Wiring

/-!
# The Board on a Device

What the buffers of an engine hold when the search stands at a board.

All there is to know of a board lies in nine buffers: five for the variables,
the cells, and the three tables of the basis. `Contents.Holds` says that they
hold a board. The words beyond the last variable or cell are of no importance,
and neither are the output of the scans and the partial sums, which are written
before they are read.

The engine itself knows only numbers, `Parallel.Fits`, and `Parallel.Wired`
says that the arguments which stay the same are bound. All of it together is
`Parallel.Stands`: the device of the engine stands at a board.

## Main definitions

* `Contents.Variables`, `Contents.Holds`: The buffers hold a board.
* `Parallel.Fits`: The engine was made for a board of that size.
* `Parallel.invariants`, `Parallel.Wired`: The arguments that stay the same.
* `Parallel.Stands`: The device stands at a board.

## Theorems

* `Contents.Variables.congr`, `Contents.Tables.congr`: The buffers that count.
* `Contents.Holds.set`, `Contents.Holds.setValues`: A buffer that is replaced.
* `Parallel.bindInvariants_gives`: The arguments that stay the same are bound.
-/

namespace BoundedSimplex

/-! ### What the buffers hold -/

/-- The buffers hold the variables of a board. -/
structure Contents.Variables (c : Contents) (b : Board Binary32) : Prop where
  bounds : BoundView.Shows ⟨c .lower, c .upper, c .bounded⟩ b.numVars b.interval
  values : ∀ v < b.numVars, (c .values).number? v = some (b.value v)
  flags : ∀ v < b.numVars, (c .flags)[v]? = some (b.role v).flag

/-- The buffers hold the tables of a basis. -/
structure Contents.Tables (c : Contents) (b : Board Binary32) : Prop where
  colVar : ∀ k < b.numCols, (c .colVar).index? k = some (b.basis.inCol k)
  rowVar : ∀ r < b.maxRows, (c .rowVar).index? r = some (b.basis.inRow r)
  place : ∀ v < b.numVars, (c .place).index? v = some (b.basis.placeOf v)

/-- The buffers hold a board. -/
structure Contents.Holds (c : Contents) (b : Board Binary32) : Prop where
  vars : c.Variables b
  tables : c.Tables b
  cells : (c .tableau).Cells b.numCols b.maxRows b.coeff

/-- The buffers with one element for each variable. -/
def Slot.variables : List Slot := [.lower, .upper, .bounded, .values, .flags]

/-- The buffers with the tables of a basis. -/
def Slot.tables : List Slot := [.colVar, .rowVar, .place]

theorem Words.number?_modify (ws : Words) (i : Nat) (g : Binary32 → Binary32) (j : Nat) :
    number? (ws.modify i fun u => (g ⟨u⟩).bits) j
      = if j = i then (ws.number? j).map g else ws.number? j := by
  rw [number?, number?, Array.getElem?_modify]
  by_cases hij : i = j
  · rw [if_pos hij, if_pos hij.symm, Option.map_map, Option.map_map]
    rfl
  · rw [if_neg hij, if_neg (Ne.symm hij)]

section Holds

variable {c c' : Contents} {b : Board Binary32}

theorem Contents.Variables.congr (h : c.Variables b) (hsame : ∀ s ∈ Slot.variables, c' s = c s) :
    c'.Variables b := by
  refine ⟨?_, ?_, ?_⟩
  · rw [hsame .lower (by decide), hsame .upper (by decide), hsame .bounded (by decide)]
    exact h.bounds
  · rw [hsame .values (by decide)]
    exact h.values
  · rw [hsame .flags (by decide)]
    exact h.flags

theorem Contents.Tables.congr (h : c.Tables b) (hsame : ∀ s ∈ Slot.tables, c' s = c s) :
    c'.Tables b := by
  refine ⟨?_, ?_, ?_⟩
  · rw [hsame .colVar (by decide)]
    exact h.colVar
  · rw [hsame .rowVar (by decide)]
    exact h.rowVar
  · rw [hsame .place (by decide)]
    exact h.place

/-- What lies in the other buffers is of no importance: a board says nothing of the output
    and the partial sums. -/
theorem Contents.Holds.set (h : c.Holds b) {s : Slot}
    (hs : s = .output ∨ ∃ second, s = .sums second) (ws : Words) : (c.set s ws).Holds b := by
  have hother : ∀ t, (t ≠ .output ∧ ∀ second, t ≠ .sums second) → c.set s ws t = c t := by
    rintro t ⟨hout, hsums⟩
    refine Contents.set_other ?_
    rcases hs with rfl | ⟨second, rfl⟩
    · exact hout
    · exact hsums second
  have hvars : ∀ t ∈ Slot.variables, t ≠ .output ∧ ∀ second, t ≠ .sums second := by decide
  have htables : ∀ t ∈ Slot.tables, t ≠ .output ∧ ∀ second, t ≠ .sums second := by decide
  refine ⟨h.vars.congr fun t ht => hother t (hvars t ht),
    h.tables.congr fun t ht => hother t (htables t ht), ?_⟩
  rw [hother .tableau (by decide)]
  exact h.cells

/-- The values are replaced. -/
theorem Contents.Holds.setValues (h : c.Holds b) {ws : Words} {x : Nat → Binary32}
    (hws : ∀ v < b.numVars, ws.number? v = some (x v)) :
    (c.set .values ws).Holds { b with value := x } := by
  -- The values are in a buffer of their own, so nothing else that is held can change.
  have htables : ∀ t ∈ Slot.tables, t ≠ .values := by decide
  have hkept : (c.set .values ws).Tables b :=
    h.tables.congr fun t ht => Contents.set_other (htables t ht)
  refine ⟨⟨?_, fun v hv => ?_, ?_⟩, ⟨hkept.colVar, hkept.rowVar, hkept.place⟩, ?_⟩
  · rw [Contents.set_other (by decide), Contents.set_other (by decide),
      Contents.set_other (by decide)]
    exact h.vars.bounds
  · rw [Contents.set_same]
    exact hws v hv
  · rw [Contents.set_other (by decide)]
    exact h.vars.flags
  · rw [Contents.set_other (by decide)]
    exact h.cells

end Holds

/-- The number of elements a buffer is made for. -/
def Slot.elements (maxRows numCols groups : Nat) : Slot → Nat
  | .tableau => maxRows * numCols
  | .colVar => numCols
  | .rowVar => maxRows
  | .output => 1
  | .sums _ => groups
  | _ => maxRows + numCols

namespace Parallel

/-- The engine was made for a board of that size, with workgroups of a width. All of this is
    settled when the engine is made, and no operation changes it. -/
structure Fits (p : Parallel) (width : Nat) (b : Board Binary32) : Prop where
  numVars : p.numVars = b.numVars
  numCols : p.numCols = b.numCols
  tolerance : p.tolerance = b.tolerance
  boundVars : p.bounds.numVars = b.numVars
  small : b.numVars < UInt32.size
  numCols_pos : 0 < b.numCols
  elements : ∀ s, (p.slot s).length = s.elements b.maxRows b.numCols (ceilDiv b.numCols width)
  workgroup : p.geometry.workgroup = width
  width_pos : 0 < width
  width_pow : floorPow2 width = width
  tile : 0 < p.geometry.tile ∧ p.geometry.tile * p.geometry.tile ≤ width
  chunk : ∃ units, 0 < units ∧ p.geometry.chunk = units * width
  chunk_lt : p.geometry.chunk < UInt32.size

/-- The arguments that stay the same from one launch of a kernel to the next. They are bound
    once, before the first one. -/
def invariants (p : Parallel) : Entry → List (Nat × Arg)
  | .checkBounds =>
    [(0, count p.numVars), (2, .number p.tolerance), (3, p.bounds.lower.arg),
      (4, p.bounds.upper.arg), (5, p.bounds.bounded.arg), (6, p.bounds.values.arg),
      (7, p.bounds.flags.arg), (8, p.output.arg)]
  | .findSuitable =>
    [(0, count p.numVars), (1, count p.numCols), (4, p.tableau.arg), (5, p.bounds.lower.arg),
      (6, p.bounds.upper.arg), (7, p.bounds.bounded.arg), (8, p.bounds.values.arg),
      (9, p.bounds.flags.arg), (10, p.place.arg), (11, p.output.arg)]
  | .findSuitableComplete =>
    [(0, count p.numCols), (3, p.tableau.arg), (4, p.bounds.lower.arg), (5, p.bounds.upper.arg),
      (6, p.bounds.bounded.arg), (7, p.bounds.values.arg), (8, p.place.arg)]
  | .pivotUpdateInner => [(3, count p.numRows), (4, count p.numCols), (5, p.tableau.arg)]
  | .pivotUpdateRow => [(3, count p.numCols), (4, p.tableau.arg)]
  | .pivotUpdateColumn => [(3, count p.numRows), (4, count p.numCols), (5, p.tableau.arg)]
  | .updateAssignment =>
    [(0, count p.numCols), (2, p.tableau.arg), (3, p.bounds.values.arg), (4, p.colVar.arg),
      (5, p.partials.1.arg)]
  | .reducePartialSums => []
  | .updateAssignmentComplete => [(3, p.bounds.values.arg)]

/-- They are bound. The others may have any value, or none. -/
def Wired (p : Parallel) (a : Wiring) : Prop := ∀ e, a.Tells e (p.invariants e)

/-- The places of a kernel whose arguments stay the same. -/
def fixed : Entry → List Nat
  | .checkBounds => [0, 2, 3, 4, 5, 6, 7, 8]
  | .findSuitable => [0, 1, 4, 5, 6, 7, 8, 9, 10, 11]
  | .findSuitableComplete => [0, 3, 4, 5, 6, 7, 8]
  | .pivotUpdateInner => [3, 4, 5]
  | .pivotUpdateRow => [3, 4]
  | .pivotUpdateColumn => [3, 4, 5]
  | .updateAssignment => [0, 2, 3, 4, 5]
  | .reducePartialSums => []
  | .updateAssignmentComplete => [3]

theorem map_fst_invariants (p : Parallel) (e : Entry) :
    (p.invariants e).map Prod.fst = fixed e := by
  cases e <;> rfl

/-- The device of the engine stands at a board: the engine was made ready, its kernels are
    wired to its buffers, and these hold what the board says. -/
structure Stands (p : Parallel) (width : Nat) (d : Device) (b : Board Binary32) : Prop where
  fits : p.Fits width b
  numRows : p.numRows = b.numRows
  prepared : p.prepared = true
  holds : ∃ a c, p.Sees d a c ∧ p.Wired a ∧ c.Holds b

variable {p : Parallel} {d : Device} {a : Wiring} {c : Contents} {b : Board Binary32} {width : Nat}

/-- Only the size of the system and the tolerance count. -/
theorem Fits.of_eq (hf : p.Fits width b) {b' : Board Binary32} (hrows : b'.maxRows = b.maxRows)
    (hcols : b'.numCols = b.numCols) (htol : b'.tolerance = b.tolerance) : p.Fits width b' := by
  have hnum : b'.numVars = b.numVars := by rw [Board.numVars, hrows, hcols, Board.numVars]
  refine ⟨?_, ?_, ?_, ?_, ?_, ?_, ?_, hf.workgroup, hf.width_pos, hf.width_pow, hf.tile, hf.chunk,
    hf.chunk_lt⟩
  · rw [hnum, hf.numVars]
  · rw [hcols, hf.numCols]
  · rw [htol, hf.tolerance]
  · rw [hnum, hf.boundVars]
  · rw [hnum]
    exact hf.small
  · rw [hcols]
    exact hf.numCols_pos
  · rw [hrows, hcols]
    exact hf.elements

theorem Fits.of_same (hf : p.Fits width b) {b' : Board Binary32} (h : b'.Same b) :
    p.Fits width b' :=
  hf.of_eq h.maxRows h.numCols h.tolerance

/-- The widths of an engine that fits a board. -/
theorem Fits.sound (hf : p.Fits width b) {limit : Nat} (hle : width ≤ limit) :
    p.geometry.Sound limit := by
  have hwidth := hf.workgroup
  refine ⟨?_, ?_, ?_, ?_, ?_, hf.chunk_lt⟩
  · rw [hwidth]
    exact hf.width_pos
  · rw [hwidth]
    exact hf.width_pow
  · rw [hwidth]
    exact hle
  · rw [hwidth]
    exact hf.tile
  · rw [hwidth]
    exact hf.chunk

theorem Fits.width_lt (hf : p.Fits width b) : width < UInt32.size := by
  rw [← hf.workgroup]
  exact (hf.sound (Nat.le_refl _)).workgroup_lt

theorem Fits.tile_lt (hf : p.Fits width b) : p.geometry.tile < UInt32.size :=
  (hf.sound (Nat.le_refl _)).tile_lt

theorem Fits.word_numVars (hf : p.Fits width b) : p.numVars.toUInt32.toNat = b.numVars := by
  rw [hf.numVars, toNat_toUInt32 hf.small]

/-- Numbers of variables, rows and columns fit a word. -/
theorem Fits.word_eq (hf : p.Fits width b) {n : Nat} (hn : n ≤ b.numVars) :
    n.toUInt32.toNat = n :=
  toNat_toUInt32 (Nat.lt_of_le_of_lt hn hf.small)

theorem Fits.row_lt (hf : p.Fits width b) {n : Nat} (hn : n ≤ b.maxRows) : n < UInt32.size :=
  Nat.lt_of_le_of_lt (Nat.le_trans hn (Nat.le_add_left _ _)) hf.small

theorem Fits.numCols_lt (hf : p.Fits width b) : b.numCols < UInt32.size :=
  Nat.lt_of_le_of_lt (Nat.le_add_right _ _) hf.small

theorem Fits.word_row (hf : p.Fits width b) {r : Nat} (hr : r < b.maxRows) :
    r.toUInt32.toNat = r :=
  hf.word_eq (by rw [Board.numVars]; omega)

theorem Fits.word_col (hf : p.Fits width b) {k : Nat} (hk : k < b.numCols) :
    k.toUInt32.toNat = k :=
  hf.word_eq (by rw [Board.numVars]; omega)

theorem Fits.word_numCols (hf : p.Fits width b) : p.numCols.toUInt32.toNat = b.numCols := by
  rw [hf.numCols, hf.word_eq (Nat.le_add_right _ _)]

/-- Binding other arguments leaves those that stay the same. -/
theorem Wired.setAll (h : p.Wired a) {e : Entry} {args : List (Nat × Arg)}
    (hargs : ∀ i ∈ args.map Prod.fst, i ∉ fixed e) : p.Wired (a.setAll e args) := by
  intro e'
  refine (h e').setAll ?_
  rintro rfl q hq r hr heq
  refine hargs q.1 (List.mem_map_of_mem hq) ?_
  rw [← heq, ← map_fst_invariants p]
  exact List.mem_map_of_mem hr

theorem Wired.set (h : p.Wired a) {e : Entry} {i : Nat} (hi : i ∉ fixed e) (x : Arg) :
    p.Wired (a.set e i x) := by
  have hargs : ∀ j ∈ [(i, x)].map Prod.fst, j ∉ fixed e := by
    intro j hj
    rwa [List.mem_singleton.mp hj]
  exact h.setAll hargs

/-- Arguments that change are bound, and those that stay the same stay. -/
theorem rebind_gives (h : p.Sees d a c) (hw : p.Wired a) {e : Entry} (args : List (Nat × Arg))
    (places : List Nat) (heq : args.map Prod.fst = places)
    (hplaces : ∀ i ∈ places, i < e.arity ∧ i ∉ fixed e) (hnd : places.Nodup) :
    (p.bind e args).Gives d fun _ d' => p.Sees d' (a.setAll e args) c ∧
      p.Wired (a.setAll e args) ∧ (a.setAll e args).Tells e args := by
  subst heq
  have hlt : ∀ q ∈ args, q.1 < e.arity := fun q hq => (hplaces q.1 (List.mem_map_of_mem hq)).1
  refine (h.bind_gives args hlt).mono fun _ d' hd' => ⟨hd', ?_, ?_⟩
  · exact hw.setAll fun i hi => (hplaces i hi).2
  · exact Wiring.tells_setAll (List.pairwise_map.mp hnd)

theorem bindInvariants_gives (h : p.Sees d a c) :
    p.bindInvariants.Gives d fun _ d' => ∃ a', p.Sees d' a' c ∧ p.Wired a' := by
  have hbind : ∀ (es : List Entry) {d : Device} {a : Wiring}, es.Nodup → p.Sees d a c →
      (es.forM fun e => p.bind e (p.invariants e)).Gives d fun _ d' => ∃ a', p.Sees d' a' c ∧
        (∀ e ∈ es, a'.Tells e (p.invariants e)) ∧ ∀ e ∉ es, ∀ i, a' e i = a e i := by
    intro es
    induction es with
    | nil =>
        intro _ _ _ h
        exact Exec.Gives.pure ⟨_, h, fun e he => absurd he List.not_mem_nil, fun _ _ _ => rfl⟩
    | cons e rest ih =>
        intro d a hnd h
        rcases List.nodup_cons.mp hnd with ⟨he, hrest⟩
        have hplaces : ∀ q ∈ p.invariants e, q.1 < e.arity := by
          have hall : ∀ i ∈ fixed e, i < e.arity := by cases e <;> decide
          intro q hq
          refine hall q.1 ?_
          rw [← map_fst_invariants p]
          exact List.mem_map_of_mem hq
        have hdistinct : (p.invariants e).Pairwise fun q r => q.1 ≠ r.1 := by
          have hnodup : (fixed e).Nodup := by cases e <;> decide
          rw [← map_fst_invariants p] at hnodup
          exact List.pairwise_map.mp hnodup
        refine (h.bind_gives _ hplaces).bind fun _ d₁ h₁ => (ih hrest h₁).mono ?_
        rintro _ d₂ ⟨a', h₂, htold, hkept⟩
        refine ⟨a', h₂, ?_, fun e' he' i => ?_⟩
        · intro e' he'
          rcases List.mem_cons.mp he' with rfl | he'
          · intro q hq
            -- The other kernels come later, and leave this one alone.
            rw [hkept e' he q.1]
            exact Wiring.tells_setAll hdistinct q hq
          · exact htold e' he'
        · rw [hkept e' (fun hmem => he' (List.mem_cons_of_mem _ hmem)) i]
          exact Wiring.setAll_other fun heq => absurd (heq ▸ List.mem_cons_self) he'
  let es : List Entry := [.checkBounds, .findSuitable, .findSuitableComplete, .pivotUpdateInner,
    .pivotUpdateRow, .pivotUpdateColumn, .updateAssignment, .updateAssignmentComplete]
  have heq : p.bindInvariants = es.forM fun e => p.bind e (p.invariants e) := by
    simp only [es, List.forM_eq_forM, List.forM_cons, List.forM_nil, bind_pure_unit]
    rfl
  rw [heq]
  refine (hbind es (by decide) h).mono ?_
  rintro _ d' ⟨a', h', htold, -⟩
  refine ⟨a', h', fun e => ?_⟩
  -- All of a kernel that is not bound here changes with every launch.
  by_cases he : e ∈ es
  · exact htold e he
  · have hreduce : e = .reducePartialSums := by
      cases e
      case reducePartialSums => rfl
      all_goals exact absurd (by decide) he
    rw [hreduce]
    exact fun q hq => absurd hq List.not_mem_nil

end Parallel

end BoundedSimplex
