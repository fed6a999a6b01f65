import BoundedSimplex.Proofs.Follows
import BoundedSimplex.Proofs.Launches
import BoundedSimplex.Proofs.Sequential

/-!
# The Parallel Engine and the Board

The operations of the engine on a device, in terms of the board.

The engine keeps a copy of the tableau and of the basis on its device, next to
the bounds. `Parallel.Ready` is how it describes a board before the copy was
made, when the device holds the variables and the process holds the rest, and
`Parallel.Shows` is how it does so afterwards, when all of it is on the device
and the process keeps the basis alone.

Every operation is a few transfers and launches, and what each of them leaves
is known. Together they come to what the operation does to the board, which is
the contract `Engine.Follows`. The one difference to the other engine is in
the sum of a row: it is a sum by workgroups. With a workgroup of a single item
and a row of more than one column it never ends, and a row of nearly as many
columns as there are words does not fit a word once it is rounded up to whole
workgroups.

## Main definitions

* `Parallel.Ready`, `Parallel.Shows`: How the engine describes a board.
* `Parallel.Suited`: What the search for a suitable variable has left on the device.
* `Parallel.Summed`: What sums of rows have left on the device.
* `sumsEnd`: Whether sums of so many items end.
* `sumObstacle`: What keeps the engine from summing rows of so many items.

## Theorems

* `sumObstacle_eq_none`: When there is no obstacle.
* `Parallel.checkBounds_gives`, `Parallel.findSuitable_gives`: The scans.
* `Parallel.exchange_gives`, `Parallel.exchange_stops`: The exchange on the device.
* `Parallel.updateRow_gives`, `Parallel.updateRow_stops`: The sum of a row.
* `Parallel.updateRow_overflows`: A row that is too long changes nothing.
* `Parallel.updateRows_gives`: Some rows, one after the other.
* `Parallel.follows`: The engine follows the board.
-/

namespace BoundedSimplex

/-- Whether sums of so many items end, with workgroups of a width. It runs the plan of the
    launches, and is decided more simply by `sumsEnd_iff`. -/
def sumsEnd (width n : Nat) : Bool := (foldPlan width (ceilDiv n width) (ceilDiv n width)).isSome

/-- They do if a workgroup has two items, or if there is a single one to add. -/
theorem sumsEnd_eq_true {width n : Nat} (hw : 0 < width) (h : 2 ≤ width ∨ n = 1) :
    sumsEnd width n = true := by
  unfold sumsEnd
  rcases h with htwo | rfl
  · exact foldPlan_isSome htwo _ (Nat.le_refl _)
  · have hone : ceilDiv 1 width = 1 := by
      have hle := @ceilDiv_le 1 width
      have hpos := ceilDiv_pos hw Nat.one_pos
      omega
    rw [hone, foldPlan, if_pos (show 1 ≤ width from hw)]
    rfl

/-- What keeps the engine from summing rows of so many items, with workgroups of a
    width. A row is rounded up before anything is summed, so that comes first. -/
def sumObstacle (width n : Nat) : Option Obstacle :=
  if UInt32.size ≤ ceilDiv n width * width then some .overflow
  else if sumsEnd width n then none else some .endless

theorem sumObstacle_eq_none_iff {width n : Nat} :
    sumObstacle width n = none ↔
      ceilDiv n width * width < UInt32.size ∧ sumsEnd width n = true := by
  unfold sumObstacle
  split <;> rename_i hle
  · exact iff_of_false nofun fun h => Nat.not_lt_of_le hle h.1
  · split <;> rename_i hends
    · exact iff_of_true rfl ⟨Nat.lt_of_not_le hle, hends⟩
    · exact iff_of_false nofun fun h => hends h.2

/-- A row that fits does not overflow, whether its sums end or not. -/
theorem sumObstacle_ne_overflow {width n : Nat} (hfits : ceilDiv n width * width < UInt32.size) :
    sumObstacle width n ≠ some .overflow := by
  rw [sumObstacle, if_neg (Nat.not_le_of_lt hfits)]
  split <;> nofun

/-- Nothing keeps an engine from it if all its numbers fit words and a workgroup has two
    items, or there is a single column. -/
theorem sumObstacle_eq_none {g : Geometry} {n : Nat} (hpos : 0 < g.workgroup)
    (hwords : g.InWords n) (hwidth : 2 ≤ g.workgroup ∨ n = 1) :
    sumObstacle g.workgroup n = none :=
  sumObstacle_eq_none_iff.mpr ⟨hwords.row, sumsEnd_eq_true hpos hwidth⟩

theorem Binary32.eq_zero_of_lt {x : Binary32} (h : Scalar.lt 0 x = true ∨ Scalar.lt x 0 = true) :
    x.eq 0 = false := by
  cases heq : x.eq 0 with
  | false => rfl
  | true =>
      have hsymm : Binary32.eq 0 x = true := by
        simp only [Binary32.eq, Bool.and_eq_true, decide_eq_true_eq] at heq ⊢
        exact ⟨⟨heq.1.2, heq.1.1⟩, heq.2.symm⟩
      have hlow : Scalar.lt x 0 = false := Binary32.not_lt_of_eq heq
      have hhigh : Scalar.lt 0 x = false := Binary32.not_lt_of_eq hsymm
      rw [hlow, hhigh] at h
      exact absurd h (by decide)

namespace Parallel

variable {p : Parallel} {d : Device} {a : Wiring} {c : Contents} {b : Board Binary32} {width : Nat}
  {role : Nat → Role}

theorem ensurePrepared_gives (h : p.prepared = true) :
    p.ensurePrepared.Gives d fun _ d' => d' = d := by
  unfold ensurePrepared
  rw [if_pos h]
  exact Exec.Gives.pure rfl

theorem ensurePrepared_stops (h : p.prepared = false) :
    p.ensurePrepared.Stops d (.error .notPrepared) fun d' => d' = d := by
  unfold ensurePrepared
  rw [h]
  exact Exec.Stops.fail rfl

/-! ### Scans -/

theorem checkBounds_gives (h : p.Stands width d b) :
    p.checkBounds.Gives d fun r d' => r = b.firstBroken ∧ p.Stands width d' b ∧
      p.Scanned .checkBounds r d d' := by
  rcases h.holds with ⟨a, c, hs, hw, hc⟩
  -- Neither a new offset nor the words of the output disturb what stands on the device.
  have hscan := scan_gives (e := .checkBounds) (i := 1)
    (q := fun v => decide (b.role v = .basic) && b.isBroken v)
    (I := fun a c => p.Wired a ∧ c.Holds b) h.fits (by decide)
    (fun a c x hI => ⟨hI.1.set (by decide) x, hI.2⟩)
    (fun a c ws hI => ⟨hI.1, hI.2.set (.inl rfl) ws⟩)
    (fun d a c offset hs hI ho htold => run_checkBounds_gives h.fits hs hI.1 hI.2 ho htold)
    hs ⟨hw, hc⟩
  refine (ensurePrepared_gives h.prepared).bind ?_
  rintro _ d₁ rfl
  refine hscan.mono ?_
  rintro r d₂ ⟨hr, hscanned, a', c', hs', hI⟩
  exact ⟨hr, ⟨h.fits, h.numRows, h.prepared, a', c', hs', hI⟩, hscanned⟩

/-- What the search for a suitable variable has left on the device: the launches of
    a scan, and one more if there is such a variable. Besides the output the words
    of two values may have changed then. -/
structure Suited (p : Parallel) (leaving : Nat) (r : Option Nat) (d d' : Device) : Prop where
  launched : d'.launched = (r.map fun _ => Entry.findSuitableComplete.name).toList
    ++ List.replicate (chunksUntil p.geometry.chunk p.numVars r) Entry.findSuitable.name
    ++ d.launched
  words : ∀ s, s ≠ .output → s ≠ .values →
    d'.host.memory.words? (p.slot s).id = d.host.memory.words? (p.slot s).id
  values : ∀ u, (r ≠ none → u ≠ leaving ∧ r ≠ some u) →
    (d'.host.memory.words? (p.slot .values).id).bind (·[u]?)
      = (d.host.memory.words? (p.slot .values).id).bind (·[u]?)

/-- A suitable variable is found, and if there is one, the two values are corrected. On the
    device this is one operation, and the board after it is the corrected one. -/
theorem findSuitable_gives (h : p.Stands width d b) (hv : b.Valid) {leaving : Nat}
    (hl : leaving < b.numVars) (hbasic : b.role leaving = .basic) :
    (p.findSuitable leaving).Gives d fun r d' => r = b.firstSuitable leaving ∧
      p.Stands width d' (r.elim b (b.corrected leaving)) ∧ p.Suited leaving r d d' := by
  rcases h.holds with ⟨a, c, hs, hw, hc⟩
  -- The number of the broken variable stays bound while the offsets change.
  have hscan : ∀ {d a c}, p.Sees d a c → p.Wired a ∧ c.Holds b ∧
      a .findSuitable 2 = some (count leaving) → (p.scan .findSuitable 3).Gives d fun r d' =>
        r = b.firstSuitable leaving ∧ p.Scanned .findSuitable r d d' ∧ ∃ a' c', p.Sees d' a' c' ∧
          p.Wired a' ∧ c'.Holds b ∧ a' .findSuitable 2 = some (count leaving) :=
    fun hs hI => scan_gives h.fits (by decide)
      (fun a c x hI => ⟨hI.1.set (by decide) x, hI.2.1,
        (Wiring.set_other fun _ => by decide).trans hI.2.2⟩)
      (fun a c ws hI => ⟨hI.1, hI.2.1.set (.inl rfl) ws, hI.2.2⟩)
      (fun d a c offset hs hI ho htold =>
        run_findSuitable_gives h.fits hs hI.1 hI.2.1 hv hl hbasic ho hI.2.2 htold)
      hs hI
  refine (ensurePrepared_gives h.prepared).bind ?_
  rintro _ d₁ rfl
  refine ((Device.setArg_silent _ _ _ _ _ rfl).gives
    (hs.setArg_gives (by decide) (count leaving))).bind ?_
  rintro _ d₂ ⟨h₂, hlog₂⟩
  refine (hscan h₂ ⟨hw.set (by decide) _, hc, Wiring.set_same⟩).bind ?_
  rintro _ d₃ ⟨rfl, hscanned, a', c', h₃, hw', hc', -⟩
  have hwords : ∀ s, s ≠ .output → c' s = c s := by
    intro s hne
    have hkept := hscanned.words s hne
    rw [h₃.words, h₂.words, Option.some.injEq] at hkept
    exact hkept
  cases hfound : b.firstSuitable leaving with
  | none =>
      rw [hfound] at hscanned
      refine Exec.Gives.pure ⟨rfl, ⟨h.fits, h.numRows, h.prepared, a', c', h₃, hw', hc'⟩, ?_,
        fun s hout _ => ?_, fun u _ => ?_⟩
      · rw [hscanned.launched, hlog₂]
        rfl
      · rw [h₃.words, hs.words, hwords s hout]
      · rw [h₃.words, hs.words, hwords .values (by decide)]
  | some entering =>
      rcases Board.firstSuitable_eq_some hfound with ⟨he, hen, -⟩
      rw [hfound] at hscanned
      refine ((Device.setArgs_silent _ _ _ _ rfl).gives (rebind_gives h₃ hw'
        (e := .findSuitableComplete) [(1, count leaving), (2, count entering)] [1, 2] rfl
        (by decide) (by decide))).bind ?_
      rintro _ d₄ ⟨⟨h₄, hw₄, htold⟩, hlog₄⟩
      refine ((h₄.run_launched _ _).gives
        (run_findSuitableComplete_gives h.fits h₄ hw₄ hc' hv hl he hbasic hen htold)).bind ?_
      rintro _ d₅ ⟨⟨ws, h₅, hc₅, hvalues⟩, hlog₅⟩
      refine Exec.Gives.pure ⟨rfl, ⟨h.fits.of_eq rfl rfl rfl, h.numRows, h.prepared,
        _, _, h₅, hw₄, hc₅⟩, ?_, fun s hout hval => ?_, fun u hu => ?_⟩
      · rw [hlog₅, hlog₄, hscanned.launched, hlog₂]
        rfl
      · rw [h₅.words, hs.words, Contents.set_other hval, hwords s hout]
      · rcases hu (Option.some_ne_none _) with ⟨hul, hue⟩
        rw [h₅.words, hs.words, Contents.set_same, Option.bind_some, Option.bind_some,
          hvalues u hul fun heq => hue (congrArg some heq.symm), hwords .values (by decide)]

/-! ### Exchange -/

theorem Fits.cell_lt (hf : p.Fits width b) {r k : Nat} (hr : r < b.maxRows) (hk : k < b.numCols) :
    r * p.numCols + k < (p.slot .tableau).length := by
  rw [hf.elements, hf.numCols]
  exact cellIndex_lt hr hk

theorem getCell_gives (hf : p.Fits width b) (hs : p.Sees d a c) (hc : c.Holds b) {r k : Nat}
    (hr : r < b.maxRows) (hk : k < b.numCols) :
    (p.tableau.get (r * p.numCols + k)).Gives d fun w d' =>
      (⟨w⟩ : Binary32) = b.coeff r k ∧ p.Sees d' a c := by
  have hcell := hc.cells r hr k hk
  rw [Words.cell?_eq_number? hk, Words.number?, Option.map_eq_some_iff, ← hf.numCols] at hcell
  rcases hcell with ⟨w, hword, hw⟩
  refine (hs.get_gives .tableau (hf.cell_lt hr hk) hword).mono ?_
  rintro _ d' ⟨rfl, hd'⟩
  exact ⟨hw, hd'⟩

/-- The cells after the three parts of an exchange and the transfer of the cell
    where row and column meet. -/
theorem cells_exchanged {ws : Words} {n rows numRows row col : Nat} {f : Nat → Nat → Binary32}
    (hcol : col < n)
    (h : ws.Cells n rows fun r k =>
      if (r < numRows ∧ r ≠ row) ∧ k = col then f r col / f row col
      else if r = row ∧ k ≠ col then -f row k / f row col
      else if (r < numRows ∧ r ≠ row) ∧ k ≠ col then f r k - f row k * f r col / f row col
      else f r k) :
    Words.Cells (ws.setIfInBounds (row * n + col) (1 / f row col).bits) n rows
      (exchangedCell numRows row col f) := by
  intro r hr k hk
  have hcell := Words.cell?_modify ws (fun _ => 1 / f row col) row hcol (r, k)
  rw [Words.setIfInBounds_eq_modify, hcell, h r hr k hk, exchangedCell]
  -- In the row the three parts left one formula, and elsewhere one for each case.
  by_cases hrr : r = row
  · by_cases hkc : k = col
    · rw [if_pos (by rw [hrr, hkc]), if_pos hrr, if_pos hkc]
      rfl
    · rw [if_neg fun heq => hkc (Prod.mk.inj heq).2, if_pos hrr, if_neg hkc]
      simp only [hrr, hkc, ne_eq, not_true_eq_false, and_false, false_and, not_false_eq_true,
        and_self, if_false, if_true]
  · rw [if_neg fun heq => hrr (Prod.mk.inj heq).1, if_neg hrr]
    by_cases hlt : r < numRows <;> by_cases hkc : k = col <;>
      simp only [hrr, hlt, hkc, ne_eq, not_true_eq_false, and_false, false_and, not_false_eq_true,
        and_self, if_false, if_true]

theorem exchange_gives (hf : p.Fits width b) (hs : p.Sees d a c) (hw : p.Wired a) (hc : c.Holds b)
    (hn : p.numRows = b.numRows) (hle : b.numRows ≤ b.maxRows) {row col : Nat}
    (hrow : row < b.numRows) (hcol : col < b.numCols)
    (halpha : (b.coeff row col).eq 0 = false) :
    (p.exchange row col).Gives d fun _ d' => ∃ a' ws, p.Sees d' a' (c.set .tableau ws) ∧
      p.Wired a' ∧ ws.Cells b.numCols b.maxRows (exchangedCell b.numRows row col b.coeff) := by
  have hrow' : row < b.maxRows := Nat.lt_of_lt_of_le hrow hle
  refine (getCell_gives hf hs hc hrow' hcol).bind ?_
  rintro w d₁ ⟨hw', h₁⟩
  simp only [hw', halpha, Bool.false_eq_true, if_false]
  -- The three kernels are told the same numbers before the first one runs.
  refine (rebind_gives h₁ hw (e := .pivotUpdateInner) (exchangeArgs (b.coeff row col) row col)
    [0, 1, 2] rfl (by decide) (by decide)).bind ?_
  rintro _ d₂ ⟨h₂, hw₂, htold₁⟩
  refine (rebind_gives h₂ hw₂ (e := .pivotUpdateRow) (exchangeArgs (b.coeff row col) row col)
    [0, 1, 2] rfl (by decide) (by decide)).bind ?_
  rintro _ d₃ ⟨h₃, hw₃, htold₂⟩
  refine (rebind_gives h₃ hw₃ (e := .pivotUpdateColumn) (exchangeArgs (b.coeff row col) row col)
    [0, 1, 2] rfl (by decide) (by decide)).bind ?_
  rintro _ d₄ ⟨h₄, hw₄, htold₃⟩
  -- Each launch finds the cells the one before it has left.
  refine (run_pivotUpdateInner_gives hf h₄ hw₄ hc.cells hn hle hrow hcol
    ((htold₁.elsewhere (by decide) _).elsewhere (by decide) _)).bind ?_
  rintro _ d₅ ⟨ws₅, h₅, hcells₅⟩
  rw [← Contents.set_same c .tableau ws₅] at hcells₅
  refine (run_pivotUpdateRow_gives hf h₅ hw₄ hcells₅ hrow' hcol
    (htold₂.elsewhere (by decide) _)).bind ?_
  rintro _ d₆ ⟨ws₆, h₆, hcells₆⟩
  rw [Contents.set_set] at h₆
  rw [← Contents.set_same c .tableau ws₆] at hcells₆
  refine (run_pivotUpdateColumn_gives hf h₆ hw₄ hcells₆ hn hle hrow hcol htold₃).bind ?_
  rintro _ d₇ ⟨ws₇, h₇, hcells₇⟩
  rw [Contents.set_set] at h₇
  refine (h₇.set_gives .tableau (hf.cell_lt hrow' hcol) _).bind fun _ d₈ h₈ => Exec.Gives.pure ?_
  rw [Contents.set_set, Contents.set_same, hf.numCols] at h₈
  refine ⟨_, _, h₈, hw₄, cells_exchanged hcol fun r hr k hk => ?_⟩
  -- No part reads what an earlier one has written.
  rw [hcells₇ r hr k hk]
  simp only [ne_eq, not_true_eq_false, and_false, false_and, if_false]

/-- If the coefficient is zero the device is asked for it and for nothing more. No argument
    of a kernel was set, and all words are as they were. -/
theorem exchange_stops (hf : p.Fits width b) (hs : p.Sees d a c) (hc : c.Holds b) {row col : Nat}
    (hrow : row < b.maxRows) (hcol : col < b.numCols) (halpha : (b.coeff row col).eq 0 = true) :
    (p.exchange row col).Stops d (.error (.zeroPivot row col)) fun d' => p.Sees d' a c := by
  refine Exec.Stops.after (getCell_gives hf hs hc hrow hcol) ?_
  rintro w d₁ ⟨hw, h₁⟩
  simp only [hw, halpha, if_true]
  exact Exec.Stops.fail h₁

theorem index?_tableWords {ws : Words} {table : Array Nat} (hle : table.size ≤ ws.size) {k n : Nat}
    (hk : table[k]? = some n) (hn : n < UInt32.size) :
    Words.index? (ws.overlay 0 (tableWords table)) k = some n := by
  have hsize : (tableWords table).size = table.size := Array.size_map
  rcases Array.getElem?_eq_some_iff.mp hk with ⟨hlt, -⟩
  rw [Words.index?, Words.getElem?_overlay (by omega), if_pos (by omega), Nat.sub_zero, tableWords,
    Array.getElem?_map, hk, Option.map_some, Option.map_some, toNat_toUInt32 hn]

theorem uploadBasis_gives (hf : p.Fits width b) (hs : p.Sees d a c)
    (hm : b.basis.Matches b.maxRows b.numCols b.role) :
    (p.uploadBasis b.basis).Gives d fun _ d' => ∃ c', p.Sees d' a c' ∧ c'.Tables b ∧
      ∀ s, s ∉ Slot.tables → c' s = c s := by
  -- The tables are sent as words, and a variable of the board fits one.
  have hword : ∀ {n}, n < b.numVars → n < UInt32.size := fun hn => Nat.lt_trans hn hf.small
  have hcolSize : (p.slot .colVar).length = b.basis.colVar.size := by
    rw [hf.elements, hm.size_colVar]
    rfl
  have hrowSize : (p.slot .rowVar).length = b.basis.rowVar.size := by
    rw [hf.elements, hm.size_rowVar]
    rfl
  have hplaceSize : (p.slot .place).length = b.basis.place.size := by
    rw [hf.elements, hm.size_place, Nat.add_comm]
    rfl
  have hroom : ∀ {s : Slot} {table : Array Nat}, (p.slot s).length = table.size →
      0 + (tableWords table).size ≤ (p.slot s).length := by
    intro s table hsize
    rw [hsize, tableWords, Array.size_map]
    omega
  have hall : ∀ {s : Slot} {table : Array Nat}, (p.slot s).length = table.size →
      table.size ≤ (c s).size := fun hsize => hsize ▸ hs.length _
  -- Three transfers, each to a buffer of its own, so each table is there after the last one.
  refine (hs.write_gives .colVar (hroom hcolSize)).bind fun _ d₁ h₁ => ?_
  refine (h₁.write_gives .rowVar (hroom hrowSize)).bind fun _ d₂ h₂ => ?_
  refine (h₂.write_gives .place (hroom hplaceSize)).mono fun _ d₃ h₃ => ⟨_, h₃, ⟨?_, ?_, ?_⟩, ?_⟩
  · intro k hk
    simp only [ne_eq, reduceCtorEq, not_false_eq_true, Contents.set_other, Contents.set_same]
    exact index?_tableWords (hall hcolSize) (hm.colVar?_eq hk) (hword (hm.col k hk).1)
  · intro r hr
    simp only [ne_eq, reduceCtorEq, not_false_eq_true, Contents.set_other, Contents.set_same]
    exact index?_tableWords (hall hrowSize) (hm.rowVar?_eq hr) (hword (hm.row r hr).1)
  · intro v hlt
    simp only [ne_eq, reduceCtorEq, not_false_eq_true, Contents.set_other, Contents.set_same]
    refine index?_tableWords (hall hplaceSize) (hm.place?_eq hlt) (hword ?_)
    cases hrole : b.role v with
    | basic => exact Nat.lt_of_lt_of_le (hm.basic v hlt hrole).1 (Nat.le_add_left _ _)
    | nonbasic => exact Nat.lt_of_lt_of_le (hm.nonbasic v hlt hrole).1 (Nat.le_add_right _ _)
  · intro s hs
    have hne : ∀ t ∈ Slot.tables, s ≠ t := by
      rintro t ht rfl
      exact hs ht
    rw [Contents.set_other (hne _ (by decide)), Contents.set_other (hne _ (by decide)),
      Contents.set_other (hne _ (by decide))]

theorem writeRole_gives (hf : p.Fits width b) (hs : p.Sees d a c) {v : Nat} (hv : v < b.numVars)
    (r : Role) :
    (p.bounds.writeRole v r).Gives d fun _ d' =>
      p.Sees d' a (c.set .flags ((c .flags).setIfInBounds v r.flag)) := by
  have hcheck : Error.checkIndex v p.bounds.numVars = .ok () :=
    if_pos (by rw [hf.boundVars]; exact hv)
  refine (Exec.Yields.check hcheck).gives ?_
  refine hs.set_gives .flags ?_ r.flag
  rw [hf.elements]
  show v < b.maxRows + b.numCols
  rw [Nat.add_comm]
  exact hv

/-- The basis and the two roles reach the device once the cells are exchanged. -/
theorem recordExchange_gives (hf : p.Fits width b) (hs : p.Sees d a c) (hvars : c.Variables b)
    (hm : b.basis.Matches b.maxRows b.numCols b.role) {leaving entering : Nat}
    (hl : leaving < b.numVars) (he : entering < b.numVars) (hlb : b.role leaving = .basic)
    (hen : b.role entering = .nonbasic)
    (hcells : (c .tableau).Cells b.numCols b.maxRows (b.exchanged leaving entering).coeff) :
    (p.recordExchange (b.basis.swapped leaving entering) leaving entering).Gives d fun _ d' =>
      ∃ c', p.Sees d' a c' ∧ c'.Holds (b.exchanged leaving entering) := by
  have hf' : p.Fits width (b.exchanged leaving entering) := hf.of_same b.same_exchanged
  refine (uploadBasis_gives hf' hs (hm.swapped hl he hlb hen)).bind ?_
  rintro _ d₁ ⟨c₁, h₁, htables, hkept⟩
  refine (writeRole_gives hf h₁ hl .nonbasic).bind fun _ d₂ h₂ => ?_
  refine (writeRole_gives hf h₂ he .basic).mono fun _ d₃ h₃ => ⟨_, h₃, ?_⟩
  rw [Contents.set_set, Contents.set_same, hkept .flags (by decide)]
  have hother : ∀ t ∈ Slot.tables, t ≠ .flags := by decide
  refine ⟨⟨?_, ?_, ?_⟩, htables.congr fun t ht => Contents.set_other (hother t ht), ?_⟩
  · rw [Contents.set_other (by decide), Contents.set_other (by decide),
      Contents.set_other (by decide), hkept .lower (by decide), hkept .upper (by decide),
      hkept .bounded (by decide)]
    exact hvars.bounds
  · rw [Contents.set_other (by decide), hkept .values (by decide)]
    exact hvars.values
  · intro v hlt
    rcases Array.getElem?_eq_some_iff.mp (hvars.flags v hlt) with ⟨hsize, -⟩
    -- The role of the entering variable is written last.
    rw [Contents.set_same, Array.getElem?_setIfInBounds, Array.getElem?_setIfInBounds,
      Array.size_setIfInBounds]
    simp only [Board.exchanged, exchangedRole]
    by_cases hve : v = entering
    · rw [if_pos hve.symm, if_pos hve, if_pos (hve ▸ hsize)]
    · rw [if_neg (Ne.symm hve), if_neg hve]
      by_cases hvl : v = leaving
      · rw [if_pos hvl.symm, if_pos hvl, if_pos (hvl ▸ hsize)]
      · rw [if_neg (Ne.symm hvl), if_neg hvl]
        exact hvars.flags v hlt
  · rw [Contents.set_other (by decide), hkept .tableau (by decide)]
    exact hcells

/-! ### Values -/

theorem foldOnce_gives (hf : p.Fits width b) (hs : p.Sees d a c) (hw : p.Wired a) {second : Bool}
    {n : Nat} (hn : 0 < n) (hle : n ≤ ceilDiv b.numCols width)
    (hfits : ceilDiv b.numCols width * width < UInt32.size) {x : Nat → Binary32}
    (hx : ∀ i < n, (c (.sums second)).number? i = some (x i)) :
    (p.foldOnce n (p.slot (.sums second)) (p.slot (.sums !second))).Gives d fun _ d' =>
      ∃ a' ws, p.Sees d' a' (c.set (.sums !second) ws) ∧ p.Wired a' ∧
        ∀ g < ceilDiv n width, Words.number? ws g = some (groupTotal width n x g) := by
  unfold foldOnce
  rw [hf.workgroup]
  refine (rebind_gives hs hw (e := .reducePartialSums) _ [0, 1, 2] rfl (by decide)
    (by decide)).bind ?_
  rintro _ d₁ ⟨h₁, hw₁, htold⟩
  -- There are no more partial sums than columns, so they fit if the columns do.
  have hcount : n ≤ b.numCols := Nat.le_trans hle ceilDiv_le
  have hlt := Nat.lt_of_le_of_lt (ceilDiv_mul_le_of_le hcount) hfits
  refine (Exec.Yields.word hlt).gives ?_
  refine (run_reducePartialSums_gives hf h₁ hn hle hlt hx htold).mono ?_
  rintro _ d₂ ⟨ws, h₂, hsums⟩
  exact ⟨_, ws, h₂, hw₁, hsums⟩

/-- The two buffers of partial sums take turns. -/
theorem foldPartials_gives (hf : p.Fits width b) {plan : List Nat} :
    ∀ (second : Bool) {steps n : Nat} {d : Device} {a : Wiring} {c : Contents}
      {x : Nat → Binary32}, foldPlan width steps n = some plan → 0 < n →
      n ≤ ceilDiv b.numCols width → p.Sees d a c → p.Wired a → c.Holds b →
      ceilDiv b.numCols width * width < UInt32.size →
      (∀ i < n, (c (.sums second)).number? i = some (x i)) →
      (p.foldPartials plan (p.slot (.sums second)) (p.slot (.sums !second))).Gives d fun r d' =>
        ∃ last a' c', r = p.slot (.sums last) ∧ p.Sees d' a' c' ∧ p.Wired a' ∧ c'.Holds b ∧
          (∀ s, (∀ k, s ≠ .sums k) → c' s = c s) ∧
          ∀ i < lastCount width plan n,
            (c' (.sums last)).number? i = some (foldLevels width plan x i) := by
  -- Induction on the plan. Each launch reads one of the buffers and writes the other one, so the
  -- roles of the two are swapped for the rest.
  induction plan with
  | nil =>
      intro second steps n d a c x _ _ _ hs hw hc _ hx
      exact Exec.Gives.pure ⟨second, a, c, rfl, hs, hw, hc, fun _ _ => rfl, hx⟩
  | cons m rest ih =>
      intro second steps n d a c x hplan hn hle hs hw hc hfits hx
      rcases foldPlan_cons hplan with ⟨rfl, steps', hrest⟩
      refine (foldOnce_gives hf hs hw hn hle hfits hx).bind ?_
      rintro _ d₁ ⟨a', ws, h₁, hw₁, hsums⟩
      have hnext := ih (!second) hrest (ceilDiv_pos hf.width_pos hn)
        (Nat.le_trans ceilDiv_le hle) h₁ hw₁ (hc.set (.inr ⟨_, rfl⟩) ws)
        hfits (by rw [Contents.set_same]; exact hsums)
      rw [Bool.not_not] at hnext
      refine hnext.mono ?_
      rintro r d₂ ⟨last, a₂, c₂, hr, h₂, hw₂, hc₂, hkept, hlast⟩
      exact ⟨last, a₂, c₂, hr, h₂, hw₂, hc₂,
        fun s hs => (hkept s hs).trans (Contents.set_other (hs _)), hlast⟩

theorem lastCount_le {plan : List Nat} :
    ∀ {steps n : Nat}, foldPlan width steps n = some plan → lastCount width plan n ≤ n := by
  induction plan with
  | nil => exact fun _ => Nat.le_refl _
  | cons m rest ih =>
      intro steps n h
      rcases foldPlan_cons h with ⟨rfl, steps', hrest⟩
      exact Nat.le_trans (ih hrest) ceilDiv_le

/-- What comes before the partial sums are summed. -/
theorem firstSums_gives (hf : p.Fits width b) (hs : p.Sees d a c) (hw : p.Wired a)
    (hc : c.Holds b) (hm : b.basis.Matches b.maxRows b.numCols role) {r : Nat}
    (hr : r < b.maxRows) (hfits : ceilDiv b.numCols width * width < UInt32.size) :
    (p.firstSums r).Gives d fun _ d' =>
        ∃ a' c', p.Sees d' a' c' ∧ p.Wired a' ∧ c'.Holds b ∧
          (∀ s, (∀ k, s ≠ .sums k) → c' s = c s) ∧ ∀ g < ceilDiv b.numCols width,
          (c' (.sums false)).number? g = some (groupTotal width b.numCols (b.products r) g) := by
  unfold firstSums
  simp only [hf.numCols, hf.workgroup]
  refine (hs.setArg_gives (by decide) (count r)).bind fun _ d₁ h₁ => ?_
  have hw₁ : p.Wired (a.set .updateAssignment 1 (count r)) := hw.set (by decide) _
  -- The items of the launch are counted in a word, which is what the hypothesis on the row is
  -- for.
  refine (Exec.Yields.word hfits).gives ?_
  refine (run_updateAssignment_gives hf h₁ hw₁ hc hm hr hfits Wiring.set_same).mono ?_
  rintro _ d₂ ⟨ws, h₂, hsums⟩
  refine ⟨_, _, h₂, hw₁, hc.set (.inr ⟨_, rfl⟩) ws, fun s hs => Contents.set_other (hs _), ?_⟩
  rw [Contents.set_same]
  exact hsums

/-- A row that does not fit a word is not summed at all, and only an argument is bound
    for it that every sum binds anew. -/
theorem firstSums_stops (hf : p.Fits width b) (hs : p.Sees d a c) (hw : p.Wired a) (r : Nat)
    (hover : UInt32.size ≤ ceilDiv b.numCols width * width) :
    (p.firstSums r).Stops d .overflow fun d' => ∃ a', p.Sees d' a' c ∧ p.Wired a' := by
  unfold firstSums
  simp only [hf.numCols, hf.workgroup]
  refine Exec.Stops.after (hs.setArg_gives (by decide) (count r)) fun _ d₁ h₁ => ?_
  exact (Exec.Stops.word hover ⟨_, h₁, hw.set (by decide) _⟩).bind

/-- What sums of rows have left on the device: no buffer of the engine has changed but
    those of the values and of the partial sums. -/
def Summed (p : Parallel) (d d' : Device) : Prop :=
  ∀ s, s ≠ .values → (∀ k, s ≠ .sums k) →
    d'.host.memory.words? (p.slot s).id = d.host.memory.words? (p.slot s).id

theorem Summed.refl (p : Parallel) (d : Device) : p.Summed d d := fun _ _ _ => rfl

theorem Summed.trans {d' d'' : Device} (h : p.Summed d d') (h' : p.Summed d' d'') :
    p.Summed d d'' :=
  fun s hvalues hsums => (h' s hvalues hsums).trans (h s hvalues hsums)

/-- The row is recomputed, if nothing keeps the engine from summing it. Only the basis has
    to agree with some roles for this, and not with those on the device. -/
theorem updateRow_gives (h : p.Stands width d b) (hm : b.basis.Matches b.maxRows b.numCols role)
    {r : Nat} (hr : r < b.maxRows) (hfree : sumObstacle width b.numCols = none) :
    (p.updateRow b.basis r).Gives d fun _ d' =>
      p.Stands width d' (b.recomputedRow (groupedSum width) r) ∧ p.Summed d d' := by
  have hf := h.fits
  rcases h.holds with ⟨a, c, hs, hw, hc⟩
  rcases sumObstacle_eq_none_iff.mp hfree with ⟨hfits, hends⟩
  rcases Option.isSome_iff_exists.mp hends with ⟨plan, hplan⟩
  unfold updateRow
  simp only [hf.numCols, hf.workgroup, hplan]
  refine (firstSums_gives hf hs hw hc hm hr hfits).bind ?_
  rintro _ d₁ ⟨a₁, c₁, h₁, hw₁, hc₁, hkept₁, hsums₁⟩
  have hpos := ceilDiv_pos hf.width_pos hf.numCols_pos
  refine (foldPartials_gives hf false hplan hpos (Nat.le_refl _) h₁ hw₁ hc₁ hfits
    hsums₁).bind ?_
  rintro _ d₂ ⟨last, a₂, c₂, rfl, h₂, hw₂, hc₂, hkept₂, hsums₂⟩
  refine (Exec.Yields.entry (hm.rowVar?_eq hr)).gives ?_
  refine (rebind_gives h₂ hw₂ (e := .updateAssignmentComplete) _ [0, 1, 2] rfl (by decide)
    (by decide)).bind ?_
  rintro _ d₄ ⟨h₄, hw₄, htold⟩
  -- The count is bound as a word, so it has to be small.
  have hlast : lastCount width plan (ceilDiv b.numCols width) ≤ b.numVars := by
    have h₁ := lastCount_le hplan
    have h₂ := @ceilDiv_le b.numCols width
    rw [Board.numVars]
    omega
  refine (run_updateAssignmentComplete_gives hf h₄ hw₄ hc₂ (foldPlan_last_le hplan) hlast
    (hm.row r hr).1 hsums₂ htold).mono ?_
  rintro _ d₅ ⟨ws, h₅, hc₅⟩
  refine ⟨⟨hf.of_eq rfl rfl rfl, h.numRows, h.prepared, _, _, h₅, hw₄, ?_⟩, fun s hvalues hk => ?_⟩
  · simp only [Board.recomputedRow, groupedSum, hplan, Option.getD_some]
    exact hc₅
  · rw [h₅.words, hs.words, Contents.set_other hvalues, hkept₂ s hk, hkept₁ s hk]

/-- Some rows are recomputed, one after the other. -/
theorem updateRows_gives (h : p.Stands width d b) (hm : b.basis.Matches b.maxRows b.numCols role)
    {rows : List Nat} (hlt : ∀ r ∈ rows, r < b.maxRows)
    (hfree : sumObstacle width b.numCols = none) :
    (rows.forM (p.updateRow b.basis)).Gives d fun _ d' =>
      p.Stands width d' (b.recomputedRows (groupedSum width) rows) ∧ p.Summed d d' := by
  refine Board.forM_recomputedRows (fun d' b' => p.Stands width d' b' ∧ p.Summed d d') ?_
    ⟨h, Summed.refl p d⟩
  rintro r hr d₁ x ⟨h₁, hsummed⟩
  refine (updateRow_gives h₁ hm (hlt r hr) hfree).mono ?_
  rintro _ d₂ ⟨h₂, hsummed'⟩
  exact ⟨h₂, hsummed.trans hsummed'⟩

/-- A row that does not fit a word leaves the device where it was. The check comes before
    the first launch, so only arguments were bound. -/
theorem updateRow_overflows (h : p.Stands width d b) (r : Nat)
    (hover : UInt32.size ≤ ceilDiv b.numCols width * width) :
    (p.updateRow b.basis r).Stops d .overflow fun d' => p.Stands width d' b ∧ p.Summed d d' := by
  rcases h.holds with ⟨a, c, hs, hw, hc⟩
  refine ((firstSums_stops h.fits hs hw r hover).mono ?_).bind
  rintro d' ⟨a', hs', hw'⟩
  refine ⟨⟨h.fits, h.numRows, h.prepared, a', c, hs', hw', hc⟩, fun s _ _ => ?_⟩
  rw [hs'.words, hs.words]

/-- Otherwise it does not fit a word, or the partial sums are summed for ever. It depends on
    the width and the columns which of the two it is. -/
theorem updateRow_stops (h : p.Stands width d b) (hv : b.Valid) {r : Nat} (hr : r < b.numRows)
    {o : Obstacle} (hstuck : sumObstacle width b.numCols = some o) :
    (p.updateRow b.basis r).Stops d o.stop fun _ => True := by
  have hrm : r < b.maxRows := Nat.lt_of_lt_of_le hr hv.numRows_le
  have hf := h.fits
  rcases h.holds with ⟨a, c, hs, hw, hc⟩
  unfold sumObstacle at hstuck
  split at hstuck <;> rename_i hover
  · cases hstuck
    exact (updateRow_overflows h r hover).mono fun _ _ => trivial
  split at hstuck <;> rename_i hends
  · cases hstuck
  cases hstuck
  have hplan := Option.not_isSome_iff_eq_none.mp hends
  unfold updateRow
  simp only [hf.numCols, hf.workgroup, hplan]
  refine Exec.Stops.after (firstSums_gives hf hs hw hc hv.basis hrm (Nat.lt_of_not_le hover)) ?_
  rintro _ d₁ ⟨a₁, c₁, h₁, -⟩
  -- The device refuses nothing, so no refusal cuts the repetition short.
  have huntil : d₁.untilRefusal = 0 := by
    unfold Device.untilRefusal
    rw [h₁.refuse]
  refine Exec.Yields.view.stops ?_
  rw [huntil]
  exact fun j => ⟨d₁, j, rfl, trivial⟩

theorem updateAssignment_gives (h : p.Stands width d b) (hv : b.Valid)
    (hfree : sumObstacle width b.numCols = none) :
    (p.updateAssignment b.basis).Gives d fun _ d' =>
      p.Stands width d' (b.recomputed (groupedSum width)) := by
  refine (ensurePrepared_gives h.prepared).bind ?_
  rintro _ d₁ rfl
  rw [h.numRows, ← hv.recomputedRows_range]
  exact (updateRows_gives h hv.basis (fun r hr =>
    Nat.lt_of_lt_of_le (List.mem_range.mp hr) hv.numRows_le) hfree).mono fun _ d' hd' => hd'.1

theorem updateAssignment_stops (h : p.Stands width d b) (hv : b.Valid)
    {o : Obstacle} (hstuck : sumObstacle width b.numCols = some o) (hrows : 0 < b.numRows) :
    (p.updateAssignment b.basis).Stops d o.stop fun _ => True := by
  refine Exec.Stops.after (ensurePrepared_gives h.prepared) ?_
  rintro _ d₁ rfl
  rcases Nat.exists_eq_succ_of_ne_zero (Nat.ne_of_gt hrows) with ⟨n, hn⟩
  rw [h.numRows, hn, List.range_eq_range', List.range'_succ]
  exact (updateRow_stops h hv hrows hstuck).bind

/-! ### The engine -/

/-- How the engine describes a board before it was made ready for a search: the variables
    are on the device, all else is in the process. Bounds go to the device at once when they
    are set, rows do not. -/
structure Ready (width : Nat) (w : Desk) (b : Board Binary32) : Prop where
  tableau : w.tableau.Describes b
  basis : w.basis = b.basis
  fits : w.engine.handle.Fits width b
  prepared : w.engine.handle.prepared = false
  holds : ∃ a c, w.engine.handle.Sees w.engine.device a c ∧ c.Variables b

/-- How it does so during a search: everything is on the device, and the process knows the
    basis and the size of the tableau. The coefficients it still has in the process are
    those from before the first exchange, and nobody reads them. -/
structure Shows (width : Nat) (w : Desk) (b : Board Binary32) : Prop where
  sized : w.tableau.Sized b
  basis : w.basis = b.basis
  stands : w.engine.handle.Stands width w.engine.device b

section Engine

variable {w : Desk}

theorem onDevice_gives {α : Type} {act : Parallel → Exec Device α} {P : α → Device → Prop}
    (h : (act w.engine.handle).Gives w.engine.device P) :
    (onDevice act).Gives w fun r w' => ∃ d', P r d' ∧
      w' = ⟨w.tableau, w.basis, ⟨w.engine.handle, d'⟩⟩ := by
  unfold onDevice Workspace.onEngine Attached.onDevice
  refine Exec.Gives.focus (Exec.Yields.view.gives ?_)
  exact Exec.Gives.focus (h.mono fun r d' hr => ⟨d', hr, rfl⟩)

theorem onDevice_stops {α : Type} {act : Parallel → Exec Device α} {e : Stop} {P : Device → Prop}
    (h : (act w.engine.handle).Stops w.engine.device e P) :
    (onDevice act).Stops w e fun w' => ∃ d', P d' ∧
      w' = ⟨w.tableau, w.basis, ⟨w.engine.handle, d'⟩⟩ := by
  unfold onDevice Workspace.onEngine Attached.onDevice
  refine Exec.Stops.focus (Exec.Yields.view.stops ?_)
  exact Exec.Stops.focus (h.mono fun d' hd' => ⟨d', hd', rfl⟩)

/-- Before the tableau is copied the engine refuses to be told. -/
theorem unprepared_stops {α : Type} (h : w.engine.handle.prepared = false)
    (act : Parallel → Exec Device α) :
    (onDevice fun p => p.ensurePrepared >>= fun _ => act p).Stops w (.error .notPrepared)
      fun w' => w' = w := by
  refine (onDevice_stops (ensurePrepared_stops h).bind).mono ?_
  rintro _ ⟨d, rfl, rfl⟩
  rfl

/-- The cells are copied as the process has them. -/
theorem cells_written {ws : Words} {t : Tableau Binary32} (h : t.Describes b)
    (hsize : b.maxRows * b.numCols ≤ ws.size) :
    Words.Cells (ws.overlay 0 (t.cells.map (·.bits))) b.numCols b.maxRows b.coeff := by
  have hcells : (t.cells.map (·.bits)).size = b.maxRows * b.numCols := by
    rw [Array.size_map, t.size_cells, h.maxRows, h.numCols]
  intro r hr k hk
  have hcell := h.coeff r (by rw [h.maxRows]; exact hr) k (by rw [h.numCols]; exact hk)
  rw [Tableau.coeff?_eq_cell? (by rw [h.numCols]; exact hk), h.numCols, Tableau.cell?] at hcell
  have hlt : r * b.numCols + k < b.maxRows * b.numCols := cellIndex_lt hr hk
  rw [Words.cell?_eq_number? hk, Words.number?, Words.getElem?_overlay (by omega),
    if_pos (by omega), Nat.sub_zero, Array.getElem?_map, hcell]
  rfl

/-- The tableau and the basis reach the device, and the arguments that stay the
    same are bound. -/
theorem upload_gives (hf : p.Fits width b) (hs : p.Sees d a c) (hvars : c.Variables b)
    (hm : b.basis.Matches b.maxRows b.numCols b.role) {t : Tableau Binary32}
    (ht : t.Describes b) :
    (do
      p.tableau.write 0 (t.cells.map (·.bits))
      p.uploadBasis b.basis
      p.bindInvariants : Exec Device Unit).Gives d fun _ d' =>
        ∃ a' c', p.Sees d' a' c' ∧ p.Wired a' ∧ c'.Holds b := by
  have hlength : (p.slot .tableau).length = b.maxRows * b.numCols := hf.elements .tableau
  have hroom : 0 + (t.cells.map (·.bits)).size ≤ (p.slot .tableau).length := by
    rw [hlength, Array.size_map, t.size_cells, ht.maxRows, ht.numCols, Nat.zero_add]
  have hsize : b.maxRows * b.numCols ≤ (c .tableau).size := hlength ▸ hs.length .tableau
  refine (hs.write_gives .tableau hroom).bind fun _ d₁ h₁ => ?_
  refine (uploadBasis_gives hf h₁ hm).bind ?_
  rintro _ d₂ ⟨c₂, h₂, htables, hkept⟩
  refine (bindInvariants_gives h₂).mono ?_
  rintro _ d₃ ⟨a₃, h₃, hw₃⟩
  -- The buffers of the bounds are none of those that are written here.
  have hother : ∀ s ∈ Slot.variables, s ∉ Slot.tables ∧ s ≠ .tableau := by decide
  refine ⟨a₃, c₂, h₃, hw₃, hvars.congr fun s hvar => ?_, htables, ?_⟩
  · rcases hother s hvar with ⟨hnot, hne⟩
    rw [hkept s hnot, Contents.set_other hne]
  · rw [hkept .tableau (by decide), Contents.set_same]
    exact cells_written ht hsize

theorem prepare_gives (h : Ready width w b) (hm : b.basis.Matches b.maxRows b.numCols b.role) :
    (prepare : Exec Desk Unit).Gives w fun _ w' => Shows width w' b ∧
      w'.engine.handle.geometry = w.engine.handle.geometry := by
  rcases h.holds with ⟨a, c, hs, hvars⟩
  have hf := h.fits
  refine Exec.Yields.state.gives ?_
  -- The number of rows is all the process changes before the device is asked.
  let p : Parallel := { w.engine.handle with numRows := w.tableau.numRows }
  have hs' : p.Sees w.engine.device a c := { hs with }
  have hf' : p.Fits width b := { hf with }
  have hupload := upload_gives hf' hs' hvars hm h.tableau
  rw [← h.basis] at hupload
  refine Exec.Yields.update.gives ?_
  refine (onDevice_gives hupload).bind ?_
  rintro _ _ ⟨d', ⟨a', c', h', hw', hc'⟩, rfl⟩
  refine Exec.Yields.update.gives ?_
  exact Exec.Gives.emit ⟨⟨h.tableau.sized, h.basis, { hf' with }, h.tableau.numRows, rfl, a', c',
    { h' with }, hw', hc'⟩, rfl⟩

/-- The exchange of any two variables of which one owns a row that is taken and
    the other a column, if their coefficient is not zero. -/
theorem pivot_gives {leaving entering : Nat} (h : Shows width w b)
    (hm : b.basis.Matches b.maxRows b.numCols b.role) (hle : b.numRows ≤ b.maxRows)
    (hl : leaving < b.numVars) (he : entering < b.numVars) (hlb : b.role leaving = .basic)
    (hen : b.role entering = .nonbasic) (hrow : b.basis.placeOf leaving < b.numRows)
    (halpha : (b.cross leaving entering).eq 0 = false) :
    (pivot leaving entering : Exec Desk Unit).Gives w fun _ w' =>
      Shows width w' (b.exchanged leaving entering) := by
  have hplace : ∀ {v}, v < b.numVars → w.basis.place? v = some (b.basis.placeOf v) := by
    intro v hlt
    rw [h.basis, hm.place?_eq hlt]
  rcases h.stands.holds with ⟨a, c, hs, hw, hc⟩
  refine (onDevice_gives (ensurePrepared_gives h.stands.prepared)).bind ?_
  rintro _ _ ⟨d₁, rfl, rfl⟩
  refine Exec.Yields.state.gives ?_
  refine (Exec.Yields.entry (hplace hl)).gives ?_
  refine (Exec.Yields.entry (hplace he)).gives ?_
  refine (onDevice_gives (exchange_gives h.stands.fits hs hw hc h.stands.numRows hle hrow
    (hm.nonbasic entering he hen).1 halpha)).bind ?_
  rintro alpha _ ⟨d₄, ⟨a₄, ws, hs₄, hw₄, hcells⟩, rfl⟩
  have hswap := hm.swap?_eq hl he hlb hen
  nth_rewrite 1 [← h.basis] at hswap
  refine (Exec.Yields.entry hswap).gives ?_
  refine Exec.Yields.update.gives ?_
  -- The exchange of the cells has left the variables as they were.
  have hother : ∀ s ∈ Slot.variables, s ≠ .tableau := by decide
  have hvars : (c.set .tableau ws).Variables b :=
    hc.vars.congr fun s hs => Contents.set_other (hother s hs)
  refine (onDevice_gives (recordExchange_gives h.stands.fits hs₄ hvars hm hl he hlb hen
    (by rw [Contents.set_same]; exact hcells))).bind ?_
  rintro _ _ ⟨d₅, ⟨c₅, hs₅, hc₅⟩, rfl⟩
  have hsame : (b.exchanged leaving entering).Same b := Board.same_exchanged
  exact Exec.Gives.emit ⟨h.sized.of_same hsame, rfl, h.stands.fits.of_same hsame,
    hsame.numRows ▸ h.stands.numRows, h.stands.prepared, a₄, c₅, hs₅, hw₄, hc₅⟩

/-- The engine follows the board. -/
theorem follows (width : Nat) :
    Engine.Follows (β := Attached Parallel) (groupedSum width) (sumObstacle width) (Ready width)
      (Shows width) where
  prepare _ _ h hv := (prepare_gives h hv.basis).mono fun _ _ h' => h'.1
  checkBounds _ _ h _ := by
    refine (onDevice_gives (checkBounds_gives h.stands)).mono ?_
    rintro r _ ⟨d', ⟨hr, hd', -⟩, rfl⟩
    exact ⟨hr, h.sized, h.basis, hd'⟩
  findNone _ _ _ h hv hb hs := by
    rcases Board.firstBroken_eq_some hb with ⟨hl, hbasic, -⟩
    refine (onDevice_gives (findSuitable_gives h.stands hv hl hbasic)).mono ?_
    rintro _ _ ⟨d', ⟨rfl, hd', -⟩, rfl⟩
    rw [hs] at hd' ⊢
    exact ⟨rfl, h.sized, h.basis, hd'⟩
  findSome _ _ _ _ h hv hex := by
    refine (onDevice_gives (findSuitable_gives h.stands hv hex.leaving_lt
      hex.leaving_basic)).mono ?_
    rintro _ _ ⟨d', ⟨rfl, hd', -⟩, rfl⟩
    rw [hex.suitable] at hd' ⊢
    exact ⟨rfl, ⟨h.sized.maxRows, h.sized.numRows, h.sized.numCols⟩, h.basis, hd'⟩
  pivot _ _ _ _ hv hex h := by
    -- A variable that suits has a coefficient on one side of zero.
    have halpha := Binary32.eq_zero_of_lt
      (Board.cross_of_suits (Board.firstSuitable_eq_some hex.suitable).2.2.1)
    exact pivot_gives h hv.basis hv.numRows_le hex.leaving_lt hex.entering_lt hex.leaving_basic
      hex.entering_nonbasic (hex.row_lt hv) halpha
  update w b h hv hfree := by
    refine Exec.Yields.state.gives ?_
    rw [h.basis]
    refine (onDevice_gives (updateAssignment_gives h.stands hv hfree)).mono ?_
    rintro _ _ ⟨d', hd', rfl⟩
    exact ⟨⟨h.sized.maxRows, h.sized.numRows, h.sized.numCols⟩, h.basis, hd'⟩
  updateStuck w b o h hv hstuck hrows := by
    refine Exec.Yields.state.stops ?_
    rw [h.basis]
    exact (onDevice_stops (updateAssignment_stops h.stands hv hstuck hrows)).mono
      fun _ _ => trivial

end Engine

end Parallel

end BoundedSimplex
