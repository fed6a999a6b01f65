import BoundedSimplex.Proofs.LaunchLog
import BoundedSimplex.Proofs.Resident
import BoundedSimplex.Proofs.Sums

/-!
# Launches

What each launch of an engine leaves on its device.

A launch is stated for a device that holds a board, and it says which words of
which buffer come out of it; all other buffers are as before. The statements
about kernels are about whatever arguments they are given. Here the arguments
are those the engine binds, some once and some before each launch, and the
geometry is the one the engine launches with, so that every row, every column
and every variable is covered.

A scan is a loop over chunks, each with a launch of its own. The invariant of
the loop is that the output holds no variable yet. Since the two scans differ
in their launch alone, `scan_gives` is about any launch that lowers the output
to the lowest variable of its chunk that qualifies. It also says how many
launches the scan has made, and that it has changed nothing but the output.

## Main definitions

* `Parallel.chunksUntil`: The chunks a scan looks at.
* `Parallel.Scanned`: What a scan has left on the device.

## Theorems

* `Parallel.run_checkBounds_gives`, `Parallel.run_findSuitable_gives`: The
  launches of a scan.
* `Parallel.scan_gives`: A scan, chunk after chunk.
* `Parallel.run_findSuitableComplete_gives`: The correction of two values.
* `Parallel.run_pivotUpdateInner_gives`, `Parallel.run_pivotUpdateRow_gives`,
  `Parallel.run_pivotUpdateColumn_gives`: The three parts of an exchange.
* `Parallel.run_updateAssignment_gives`, `Parallel.run_reducePartialSums_gives`,
  `Parallel.run_updateAssignmentComplete_gives`: The launches of a sum.
-/

namespace BoundedSimplex

namespace Parallel

variable {p : Parallel} {d : Device} {a : Wiring} {c : Contents} {b : Board Binary32} {width : Nat}

/-! ### The geometry -/

theorem Fits.spanX (hf : p.Fits width b) :
    (LaunchSize.linear p.geometry.chunk p.geometry.workgroup).spanX = p.geometry.chunk := by
  rcases hf.chunk with ⟨units, _, hchunk⟩
  rw [hf.workgroup, LaunchSize.spanX_linear hf.chunk_lt hf.width_lt, hchunk,
    ceilDiv_mul hf.width_pos]

theorem Fits.chunk_pos (hf : p.Fits width b) : 0 < p.geometry.chunk :=
  (hf.sound (Nat.le_refl _)).chunk_pos

theorem Fits.linear (hf : p.Fits width b) {grid : Nat} (hgrid : 0 < grid ∧ grid < UInt32.size) :
    (LaunchSize.linear grid p.geometry.workgroup).Fits p.geometry.workgroup := by
  rw [hf.workgroup]
  exact LaunchSize.fits_linear hgrid ⟨hf.width_pos, hf.width_lt⟩ (Nat.le_refl _)

/-- A launch covers all items it is asked for. -/
theorem Fits.min_spanX (hf : p.Fits width b) {n : Nat} (hn : n < UInt32.size) :
    min (LaunchSize.linear n p.geometry.workgroup).spanX n = n := by
  rw [hf.workgroup, LaunchSize.spanX_linear hn hf.width_lt]
  exact Nat.min_eq_right (le_ceilDiv_mul hf.width_pos)

/-! ### Launches of a scan -/

section Launches

variable (hf : p.Fits width b) (hs : p.Sees d a c) (hw : p.Wired a)
include hf hs hw

/-- A launch of the scan for a broken variable. It lowers the word of the output to the
    lowest broken variable of the chunk that starts at the offset, and changes no other
    buffer. -/
theorem run_checkBounds_gives (hc : c.Holds b) {offset : Nat} (ho : offset < b.numVars)
    (htold : a .checkBounds 1 = some (count offset)) :
    (p.run .checkBounds (.linear p.geometry.chunk p.geometry.workgroup)).Gives d fun _ d' =>
      p.Sees d' a (c.set .output ((c .output).modify 0 (lowered
        (lowestIn (fun v => decide (b.role v = .basic) && b.isBroken v) offset
          (min (offset + p.geometry.chunk) b.numVars))))) := by
  have hlength := hs.length .output
  rw [hf.elements] at hlength
  -- The arguments read as words are the sizes of the board, since none of them is larger than a
  -- word.
  have hrun := Kernel.checkBounds_eq (hs.finds .checkBounds
      (.linear p.geometry.chunk p.geometry.workgroup)
      [p.numVars.toUInt32, offset.toUInt32, p.tolerance.bits]
      [.lower, .upper, .bounded, .values, .flags, .output] (by decide) (by decide))
    hf.word_numVars (hf.word_eq (Nat.le_of_lt ho))
    hf.tolerance hf.spanX hc.vars.bounds hc.vars.values hc.vars.flags hlength
  refine hs.run_gives ((hw .checkBounds).append (.cons htold Wiring.tells_nil)) ⟨rfl, rfl⟩
    (hf.linear ⟨hf.chunk_pos, hf.chunk_lt⟩) ?_ hrun
  rw [Array.size_modify]
  exact hs.length .output

/-- A launch of the scan for a variable that suits a broken one. -/
theorem run_findSuitable_gives (hc : c.Holds b) (hv : b.Valid) {leaving offset : Nat}
    (hl : leaving < b.numVars) (hbasic : b.role leaving = .basic) (ho : offset < b.numVars)
    (hbroken : a .findSuitable 2 = some (count leaving))
    (htold : a .findSuitable 3 = some (count offset)) :
    (p.run .findSuitable (.linear p.geometry.chunk p.geometry.workgroup)).Gives d fun _ d' =>
      p.Sees d' a (c.set .output ((c .output).modify 0 (lowered
        (lowestIn (fun v => decide (b.role v = .nonbasic) && b.suits leaving v) offset
          (min (offset + p.geometry.chunk) b.numVars))))) := by
  have hlength := hs.length .output
  rw [hf.elements] at hlength
  have hrow : b.basis.placeOf leaving < b.maxRows := (hv.basis.basic leaving hl hbasic).1
  -- The cell of a nonbasic variable in the row of the broken one: the kernel finds its position
  -- through the places, not through the role.
  have hcross : ∀ v < b.numVars, b.role v = .nonbasic → (c .tableau).number?
      (b.basis.placeOf leaving * b.numCols + b.basis.placeOf v) = some (b.cross leaving v) := by
    intro v hlt hrole
    have hcol : b.basis.placeOf v < b.numCols := (hv.basis.nonbasic v hlt hrole).1
    rw [← Words.cell?_eq_number? hcol]
    exact hc.cells _ hrow _ hcol
  have hrun := Kernel.findSuitable_eq (hs.finds .findSuitable
      (.linear p.geometry.chunk p.geometry.workgroup)
      [p.numVars.toUInt32, p.numCols.toUInt32, leaving.toUInt32, offset.toUInt32]
      [.tableau, .lower, .upper, .bounded, .values, .flags, .place, .output] (by decide)
      (by decide))
    hf.word_numVars hf.word_numCols (hf.word_eq (Nat.le_of_lt hl)) (hf.word_eq (Nat.le_of_lt ho))
    hf.spanX hc.vars.bounds hc.vars.values hc.vars.flags hc.tables.place hl hcross hlength
  refine hs.run_gives ((hw .findSuitable).append
    (.cons hbroken (.cons htold Wiring.tells_nil))) ⟨rfl, rfl⟩
    (hf.linear ⟨hf.chunk_pos, hf.chunk_lt⟩) ?_ hrun
  rw [Array.size_modify]
  exact hs.length .output

/-- The values of two variables are corrected. -/
theorem run_findSuitableComplete_gives (hc : c.Holds b) (hv : b.Valid) {leaving entering : Nat}
    (hl : leaving < b.numVars) (he : entering < b.numVars) (hlb : b.role leaving = .basic)
    (hen : b.role entering = .nonbasic)
    (htold : a.Tells .findSuitableComplete [(1, count leaving), (2, count entering)]) :
    (p.run .findSuitableComplete (.linear 1 1)).Gives d fun _ d' =>
      ∃ ws, p.Sees d' a (c.set .values ws) ∧
        (c.set .values ws).Holds (b.corrected leaving entering) ∧
        ∀ u, u ≠ leaving → u ≠ entering → ws[u]? = (c .values)[u]? := by
  have hne := ne_of_roles hlb hen
  have hrow : b.basis.placeOf leaving < b.maxRows := (hv.basis.basic leaving hl hlb).1
  have hcol : b.basis.placeOf entering < b.numCols := (hv.basis.nonbasic entering he hen).1
  have hcross := hc.cells _ hrow _ hcol
  rw [Words.cell?_eq_number? hcol] at hcross
  have hrun := Kernel.findSuitableComplete_eq (hs.finds .findSuitableComplete
      (.linear 1 1) [p.numCols.toUInt32, leaving.toUInt32, entering.toUInt32]
      [.tableau, .lower, .upper, .bounded, .values, .place] (by decide) (by decide))
    hf.word_numCols (hf.word_eq (Nat.le_of_lt hl)) (hf.word_eq (Nat.le_of_lt he)) hc.vars.bounds
    hc.vars.values hc.tables.place hl he hcross
  have hsize : (LaunchSize.linear 1 1).Fits p.geometry.workgroup := by
    refine LaunchSize.fits_linear (by decide) (by decide) ?_
    rw [hf.workgroup]
    exact hf.width_pos
  refine (hs.run_gives ((hw .findSuitableComplete).append htold) ⟨rfl, rfl⟩ hsize ?_ hrun).mono
    fun _ d' hd' => ⟨_, hd', hc.setValues fun v hlt => ?_, fun u hul hue => ?_⟩
  · rw [Array.size_modify, Array.size_modify]
    exact hs.length .values
  · have hvalue : (c .values).number? v = some (b.value v) := hc.vars.values v hlt
    -- Two words are changed one after the other, and they are different ones.
    have hfirst := Words.number?_modify (c .values) entering (fun x =>
      (b.correction leaving).shift x ((b.correction leaving).theta (b.cross leaving entering))) v
    refine (Words.number?_modify _ leaving (fun x =>
      (b.correction leaving).shift x (b.correction leaving).delta) v).trans ?_
    refine (congrArg (fun y => if v = leaving then Option.map _ y else y) hfirst).trans ?_
    by_cases hvl : v = leaving
    · have hve : v ≠ entering := fun hve => hne (hvl.symm.trans hve)
      simp only [if_pos hvl, if_neg hve, hvalue, Option.map_some, Board.landing]
      rw [hvl]
    · by_cases hve : v = entering
      · simp only [if_neg hvl, if_pos hve, hvalue, Option.map_some, Board.withValue, Board.moved]
        rw [hve]
      · simp only [if_neg hvl, if_neg hve, hvalue, Board.withValue]
  · rw [Array.getElem?_modify, if_neg (Ne.symm hul), Array.getElem?_modify, if_neg (Ne.symm hue)]
    rfl

end Launches

/-- The number of chunks a scan looks at: up to the one in which it finds a
    variable, and all of them if there is none. -/
def chunksUntil (chunk numVars : Nat) : Option Nat → Nat
  | some v => v / chunk + 1
  | none => ceilDiv numVars chunk

/-- A variable found in the chunk of number `n`. -/
theorem chunksUntil_some {chunk numVars n v : Nat} (hge : n * chunk ≤ v)
    (hlt : v < n * chunk + chunk) : chunksUntil chunk numVars (some v) = n + 1 := by
  have hdiv : v / chunk = n := Nat.div_eq_of_lt_le hge (by rwa [Nat.succ_mul])
  rw [chunksUntil, hdiv]

/-- What is not found before the chunk of number `n` is found later or not at all. -/
theorem lt_chunksUntil {chunk numVars n : Nat} {r : Option Nat} (hchunk : 0 < chunk)
    (hn : n < ceilDiv numVars chunk) (hr : ∀ v, r = some v → n * chunk ≤ v) :
    n < chunksUntil chunk numVars r := by
  cases r with
  | none => exact hn
  | some v => exact Nat.lt_succ_of_le ((Nat.le_div_iff_mul_le hchunk).mpr (hr v rfl))

/-- What a scan has left on the device: one launch for each chunk it looked at, and no words
    but those of the output. It stops at the first chunk with a variable, so the number of
    launches tells where that was. -/
structure Scanned (p : Parallel) (e : Entry) (r : Option Nat) (d d' : Device) : Prop where
  launched : d'.launched
    = List.replicate (chunksUntil p.geometry.chunk p.numVars r) e.name ++ d.launched
  words : ∀ s, s ≠ .output →
    d'.host.memory.words? (p.slot s).id = d.host.memory.words? (p.slot s).id

section Scan

variable {e : Entry} {i : Nat} {q : Nat → Bool} {I : Wiring → Contents → Prop}
  (hf : p.Fits width b) (hi : i < e.arity) (hset : ∀ a c x, I a c → I (a.set e i x) c)
  (hout : ∀ a c ws, I a c → I a (c.set .output ws))
  (hlaunch : ∀ d a c offset, p.Sees d a c → I a c → offset < b.numVars →
    a e i = some (count offset) →
    (p.run e (.linear p.geometry.chunk p.geometry.workgroup)).Gives d fun _ d' =>
      p.Sees d' a (c.set .output ((c .output).modify 0 (lowered
        (lowestIn q offset (min (offset + p.geometry.chunk) b.numVars))))))
include hf hi hset hout hlaunch

/-- What the chunks from number `n` on report, while the output holds no variable. -/
theorem scanChunks_gives (k : Nat) : ∀ (n : Nat), n + k = ceilDiv b.numVars p.geometry.chunk →
    ∀ {d a c}, p.Sees d a c → I a c → (c .output)[0]? = some p.numVars.toUInt32 →
    (p.scanChunks e i ((List.range' n k).map (· * p.geometry.chunk))).Gives d fun r d' =>
      r = lowestIn q (n * p.geometry.chunk) b.numVars ∧
      d'.launched = List.replicate (chunksUntil p.geometry.chunk b.numVars r - n) e.name
        ++ d.launched ∧
      ∃ a' c', p.Sees d' a' c' ∧ I a' c' ∧ ∀ s, s ≠ .output → c' s = c s := by
  have hword : p.numVars.toUInt32.toNat = b.numVars := by
    rw [hf.numVars, toNat_toUInt32 hf.small]
  have hlen : (p.slot .output).length = 1 := hf.elements .output
  induction k with
  | zero =>
      intro n hn d a c hs hI _
      have hle := le_ceilDiv_mul (n := b.numVars) hf.chunk_pos
      rw [← hn, Nat.add_zero] at hle
      refine Exec.Gives.pure ⟨(lowestIn_of_le q hle).symm, ?_, a, c, hs, hI, fun _ _ => rfl⟩
      rw [chunksUntil, ← hn, Nat.add_zero, Nat.sub_self]
      rfl
  | succ k ih =>
      intro n hn d a c hs hI hfirst
      have hn' : n < ceilDiv b.numVars p.geometry.chunk := by omega
      have hlt : n * p.geometry.chunk < b.numVars := (lt_ceilDiv_iff hf.chunk_pos).mp hn'
      rw [List.range'_succ, List.map_cons, lowestIn_chunk q p.geometry.chunk (Nat.le_of_lt hlt)]
      have hI₁ : I (a.set e i (count (n * p.geometry.chunk))) c := hset a c _ hI
      refine ((Device.setArg_silent _ _ _ _ d rfl).gives
        (hs.setArg_gives hi (count (n * p.geometry.chunk)))).bind ?_
      rintro _ d₁ ⟨h₁, hlog₁⟩
      refine ((h₁.run_launched e _).gives (hlaunch d₁ _ c _ h₁ hI₁ hlt Wiring.set_same)).bind ?_
      rintro _ d₂ ⟨h₂, hlog₂⟩
      have hI₂ := hout _ c ((c .output).modify 0 (lowered (lowestIn q (n * p.geometry.chunk)
        (min (n * p.geometry.chunk + p.geometry.chunk) b.numVars)))) hI₁
      have hget := h₂.get_gives .output (i := 0) (by rw [hlen]; exact Nat.one_pos)
        (by rw [Contents.set_same, Array.getElem?_modify, if_pos rfl, hfirst, Option.map_some])
      refine ((Buffer.get_silent _ _ _ d₂ rfl).gives hget).bind ?_
      rintro _ d₃ ⟨⟨rfl, h₃⟩, hlog₃⟩
      have hlog : d₃.launched = e.name :: d.launched := by rw [hlog₃, hlog₂, hlog₁]
      have hkept : ∀ ws s, s ≠ .output → c.set .output ws s = c s :=
        fun _ _ hne => Contents.set_other hne
      -- The scan stops at the first chunk that lowered the output.
      cases hfound : lowestIn q (n * p.geometry.chunk)
          (min (n * p.geometry.chunk + p.geometry.chunk) b.numVars) with
      | none =>
          rw [lowered_none, if_neg (UInt32.lt_irrefl _)]
          rw [hfound] at h₃ hI₂
          refine (ih (n + 1) (by omega) h₃ hI₂ ?_).mono ?_
          · rw [Contents.set_same, Array.getElem?_modify, if_pos rfl, hfirst]
            rfl
          · rintro r d' ⟨hr, hlog', a', c', h', hI', hc'⟩
            rw [Nat.succ_mul] at hr
            refine ⟨hr, ?_, a', c', h', hI', fun s hne => (hc' s hne).trans (hkept _ s hne)⟩
            have hlater : n < chunksUntil p.geometry.chunk b.numVars r := by
              refine lt_chunksUntil hf.chunk_pos hn' fun v hv => ?_
              exact Nat.le_of_add_right_le (lowestIn_eq_some (hr.symm.trans hv)).1
            have hsucc : chunksUntil p.geometry.chunk b.numVars r - n
                = chunksUntil p.geometry.chunk b.numVars r - (n + 1) + 1 := by omega
            rw [hlog', hlog, hsucc, List.replicate_succ', List.append_assoc]
            rfl
      | some v =>
          rw [hfound] at h₃ hI₂
          rcases lowestIn_eq_some hfound with ⟨hge, hle, -⟩
          have hv : v < p.numVars.toUInt32.toNat := by
            rw [hword]
            exact Nat.lt_of_lt_of_le hle (Nat.min_le_right _ _)
          have hvNat : v.toUInt32.toNat = v :=
            toNat_toUInt32 (Nat.lt_trans hv (UInt32.toNat_lt _))
          rw [lowered_some hv, if_pos (by rw [UInt32.lt_iff_toNat_lt, hvNat]; exact hv), hvNat]
          refine Exec.Gives.pure ⟨rfl, ?_, _, _, h₃, hI₂, hkept _⟩
          rw [hlog, chunksUntil_some hge (Nat.lt_of_lt_of_le hle (Nat.min_le_left _ _)),
            Nat.add_sub_cancel_left]
          rfl

/-- A scan finds the lowest variable that qualifies, if every launch lowers the
    output to the lowest one of its chunk. -/
theorem scan_gives (hs : p.Sees d a c) (hI : I a c) :
    (p.scan e i).Gives d fun r d' => r = (List.range b.numVars).find? q ∧ p.Scanned e r d d' ∧
      ∃ a' c', p.Sees d' a' c' ∧ I a' c' := by
  have hlen : (p.slot .output).length = 1 := hf.elements .output
  -- The number of variables stands for none, and is what the output holds at first.
  have hroom : 0 + #[p.numVars.toUInt32].size ≤ (p.slot .output).length := by
    rw [hlen]
    exact Nat.le_refl _
  refine ((Buffer.write_silent _ _ _ _ d rfl).gives (hs.write_gives .output hroom)).bind ?_
  rintro _ d₁ ⟨h₁, hlog₁⟩
  have hrest := scanChunks_gives hf hi hset hout hlaunch (ceilDiv b.numVars p.geometry.chunk) 0
    (Nat.zero_add _) h₁ (hout _ _ _ hI) ?_
  · rw [Nat.zero_mul] at hrest
    rw [chunkStarts, hf.numVars, List.range_eq_range']
    refine hrest.mono ?_
    rintro r d' ⟨hr, hlog, a', c', h', hI', hc'⟩
    refine ⟨?_, ⟨?_, fun s hne => ?_⟩, a', c', h', hI'⟩
    · rw [hr, lowestIn, Nat.sub_zero, List.range_eq_range']
    · rw [hlog, hlog₁, hf.numVars, Nat.sub_zero]
    · rw [h'.words, hs.words, hc' s hne, Contents.set_other hne]
  · have hsize := Nat.le_trans hroom (hs.length .output)
    rw [Contents.set_same, Words.getElem?_overlay hsize,
      if_pos ⟨Nat.le_refl 0, by exact Nat.one_pos⟩]
    rfl

end Scan

/-! ### The parts of an exchange -/

/-- What all three parts are told. -/
def exchangeArgs (alpha : Binary32) (row col : Nat) : List (Nat × Arg) :=
  [(0, .number alpha), (1, count row), (2, count col)]

section Exchange

variable (hf : p.Fits width b) (hs : p.Sees d a c) (hw : p.Wired a)
include hf hs hw

/-- The cells away from the row and the column. -/
theorem run_pivotUpdateInner_gives {f : Nat → Nat → Binary32}
    (hcells : (c .tableau).Cells b.numCols b.maxRows f) (hn : p.numRows = b.numRows)
    (hle : b.numRows ≤ b.maxRows) {alpha : Binary32} {row col : Nat} (hrow : row < b.numRows)
    (hcol : col < b.numCols)
    (htold : a.Tells .pivotUpdateInner (exchangeArgs alpha row col)) :
    (p.run .pivotUpdateInner (.planar p.numCols p.numRows p.geometry.tile)).Gives d fun _ d' =>
      ∃ ws : Words, p.Sees d' a (c.set .tableau ws) ∧ ws.Cells b.numCols b.maxRows fun r k =>
        if (r < b.numRows ∧ r ≠ row) ∧ k ≠ col then f r k - f row k * f r col / alpha
        else f r k := by
  have hrows : p.numRows.toUInt32.toNat = b.numRows := by
    rw [hn, hf.word_eq (Nat.le_trans hle (Nat.le_add_left _ _))]
  have hrow' : row.toUInt32.toNat = row := hf.word_row (Nat.lt_of_lt_of_le hrow hle)
  have hcol' : col.toUInt32.toNat = col := hf.word_col hcol
  rcases Kernel.pivotUpdateInner_eq (hs.finds .pivotUpdateInner
      (.planar p.numCols p.numRows p.geometry.tile)
      [alpha.bits, row.toUInt32, col.toUInt32, p.numRows.toUInt32, p.numCols.toUInt32] [.tableau]
      (by decide) (by decide))
    (show _ = alpha from rfl) hrow' hcol' hrows hf.word_numCols rfl rfl hcells
    (Nat.lt_of_lt_of_le hrow hle) hle hcol with ⟨ws, hrun, hsize, hcell⟩
  have hlt : b.numRows < UInt32.size := hf.row_lt hle
  -- The launch covers all columns and all rows that are taken.
  have hX : min (LaunchSize.planar p.numCols p.numRows p.geometry.tile).spanX b.numCols
      = b.numCols := by
    refine Nat.min_eq_right ?_
    rw [hf.numCols, LaunchSize.spanX_planar hf.numCols_lt hf.tile_lt]
    exact le_ceilDiv_mul hf.tile.1
  have hY : min (LaunchSize.planar p.numCols p.numRows p.geometry.tile).spanY b.numRows
      = b.numRows := by
    refine Nat.min_eq_right ?_
    rw [hn, LaunchSize.spanY_planar hlt hf.tile_lt]
    exact le_ceilDiv_mul hf.tile.1
  have hfits : (LaunchSize.planar p.numCols p.numRows p.geometry.tile).Fits
      p.geometry.workgroup := by
    refine LaunchSize.fits_planar ?_ ?_ ⟨hf.tile.1, hf.tile_lt⟩ ?_
    · rw [hf.numCols]
      exact ⟨hf.numCols_pos, hf.numCols_lt⟩
    · rw [hn]
      exact ⟨Nat.zero_lt_of_lt hrow, hlt⟩
    · rw [hf.workgroup]
      exact hf.tile.2
  refine (hs.run_gives ((hw .pivotUpdateInner).append htold) ⟨rfl, rfl⟩ hfits ?_ hrun).mono
    fun _ d' hd' => ⟨ws, hd', hcells.of_ite fun r _ k hk => ?_⟩
  · rw [hsize]
    exact hs.length .tableau
  · have hcellk := hcell (r, k)
    simp only [Parallel.invocation, hX, hY, hk, true_and] at hcellk
    exact hcellk

/-- The row that is solved, away from the column. -/
theorem run_pivotUpdateRow_gives {f : Nat → Nat → Binary32}
    (hcells : (c .tableau).Cells b.numCols b.maxRows f) {alpha : Binary32} {row col : Nat}
    (hrow : row < b.maxRows) (hcol : col < b.numCols)
    (htold : a.Tells .pivotUpdateRow (exchangeArgs alpha row col)) :
    (p.run .pivotUpdateRow (.linear p.numCols p.geometry.workgroup)).Gives d fun _ d' =>
      ∃ ws : Words, p.Sees d' a (c.set .tableau ws) ∧ ws.Cells b.numCols b.maxRows fun r k =>
        if r = row ∧ k ≠ col then -f row k / alpha else f r k := by
  have hrow' : row.toUInt32.toNat = row := hf.word_row hrow
  have hcol' : col.toUInt32.toNat = col := hf.word_col hcol
  rcases Kernel.pivotUpdateRow_eq (hs.finds .pivotUpdateRow
      (.linear p.numCols p.geometry.workgroup)
      [alpha.bits, row.toUInt32, col.toUInt32, p.numCols.toUInt32] [.tableau] (by decide)
      (by decide))
    (show _ = alpha from rfl) hrow' hcol' hf.word_numCols rfl hcells hrow with
    ⟨ws, hrun, hsize, hcell⟩
  have hpos : 0 < p.numCols ∧ p.numCols < UInt32.size := by
    rw [hf.numCols]
    exact ⟨hf.numCols_pos, hf.numCols_lt⟩
  -- There is an item for every column, so cutting the span off at the columns changes nothing.
  have hX := hf.min_spanX hpos.2
  rw [hf.numCols] at hX
  refine (hs.run_gives ((hw .pivotUpdateRow).append htold) ⟨rfl, rfl⟩ (hf.linear hpos) ?_
    hrun).mono fun _ d' hd' => ⟨ws, hd', hcells.of_ite fun r _ k hk => ?_⟩
  · rw [hsize]
    exact hs.length .tableau
  · have hcellk := hcell (r, k)
    simp only [Parallel.invocation, hf.numCols, hX, hk, true_and] at hcellk
    exact hcellk

/-- The column, away from the row. -/
theorem run_pivotUpdateColumn_gives {f : Nat → Nat → Binary32}
    (hcells : (c .tableau).Cells b.numCols b.maxRows f) (hn : p.numRows = b.numRows)
    (hle : b.numRows ≤ b.maxRows) {alpha : Binary32} {row col : Nat} (hrow : row < b.numRows)
    (hcol : col < b.numCols)
    (htold : a.Tells .pivotUpdateColumn (exchangeArgs alpha row col)) :
    (p.run .pivotUpdateColumn (.linear p.numRows p.geometry.workgroup)).Gives d fun _ d' =>
      ∃ ws : Words, p.Sees d' a (c.set .tableau ws) ∧ ws.Cells b.numCols b.maxRows fun r k =>
        if (r < b.numRows ∧ r ≠ row) ∧ k = col then f r col / alpha else f r k := by
  have hrows : p.numRows.toUInt32.toNat = b.numRows := by
    rw [hn, hf.word_eq (Nat.le_trans hle (Nat.le_add_left _ _))]
  have hrow' : row.toUInt32.toNat = row := hf.word_row (Nat.lt_of_lt_of_le hrow hle)
  have hcol' : col.toUInt32.toNat = col := hf.word_col hcol
  rcases Kernel.pivotUpdateColumn_eq (hs.finds .pivotUpdateColumn
      (.linear p.numRows p.geometry.workgroup)
      [alpha.bits, row.toUInt32, col.toUInt32, p.numRows.toUInt32, p.numCols.toUInt32] [.tableau]
      (by decide) (by decide))
    (show _ = alpha from rfl) hrow' hcol' hrows hf.word_numCols rfl hcells hle
    hcol with ⟨ws, hrun, hsize, hcell⟩
  have hpos : 0 < p.numRows ∧ p.numRows < UInt32.size := by
    rw [hn]
    exact ⟨Nat.zero_lt_of_lt hrow, hf.row_lt hle⟩
  -- There is an item for every row that is filled, and the kernel ignores the rest of the last
  -- group.
  have hX := hf.min_spanX hpos.2
  rw [hn] at hX
  refine (hs.run_gives ((hw .pivotUpdateColumn).append htold) ⟨rfl, rfl⟩
    (hf.linear hpos) ?_ hrun).mono fun _ d' hd' => ⟨ws, hd', hcells.of_ite fun r _ k _ => ?_⟩
  · rw [hsize]
    exact hs.length .tableau
  · have hcellk := hcell (r, k)
    simp only [Parallel.invocation, hn, hX] at hcellk
    exact hcellk

end Exchange

/-! ### The launches of a sum -/

section Sums

variable (hf : p.Fits width b) (hs : p.Sees d a c) (hw : p.Wired a) {role : Nat → Role}
include hf hs hw

/-- The partial sums of a row, if its items can be counted in a word. -/
theorem run_updateAssignment_gives (hc : c.Holds b)
    (hm : b.basis.Matches b.maxRows b.numCols role) {r : Nat} (hr : r < b.maxRows)
    (hfree : ceilDiv b.numCols width * width < UInt32.size)
    (htold : a .updateAssignment 1 = some (count r)) :
    (p.run .updateAssignment (.linear (ceilDiv b.numCols width * width) width)).Gives d fun _ d' =>
      ∃ ws : Words, p.Sees d' a (c.set (.sums false) ws) ∧ ∀ g < ceilDiv b.numCols width,
        ws.number? g = some (groupTotal width b.numCols (b.products r) g) := by
  have hgroups : (LaunchSize.linear (ceilDiv b.numCols width * width) width).groups.x
      = ceilDiv b.numCols width := by
    rw [LaunchSize.groups_linear hfree hf.width_lt, ceilDiv_mul hf.width_pos]
  have hlength := hs.length (.sums false)
  rw [hf.elements] at hlength
  have hcell : ∀ k < b.numCols, (c .tableau).number? (r * b.numCols + k) = some (b.coeff r k) := by
    intro k hk
    rw [← Words.cell?_eq_number? hk]
    exact hc.cells r hr k hk
  have hvalue : ∀ k < b.numCols,
      (c .values).number? (b.basis.inCol k) = some (b.value (b.basis.inCol k)) :=
    fun k hk => hc.vars.values _ (hm.col k hk).1
  rcases Kernel.updateAssignment_eq (hs.finds .updateAssignment
      (.linear (ceilDiv b.numCols width * width) width) [p.numCols.toUInt32, r.toUInt32]
      [.tableau, .values, .colVar, .sums false] (by decide) (by decide))
    hf.word_numCols (hf.word_row hr) (Extent.x_of hf.width_lt) hgroups hf.width_pos hf.width_pow
    hlength
    (Nat.le_trans (Nat.mul_le_mul_right _ hr) hc.cells.le_size) hc.tables.colVar hvalue hcell with
    ⟨ws, hrun, hsize, hsums⟩
  have hfits : (LaunchSize.linear (ceilDiv b.numCols width * width) width).Fits
      p.geometry.workgroup := by
    refine LaunchSize.fits_linear ⟨?_, hfree⟩ ⟨hf.width_pos, hf.width_lt⟩
      (Nat.le_of_eq hf.workgroup.symm)
    exact Nat.mul_pos (ceilDiv_pos hf.width_pos hf.numCols_pos) hf.width_pos
  refine (hs.run_gives ((hw .updateAssignment).append (.cons htold Wiring.tells_nil)) ⟨rfl, rfl⟩
    hfits ?_ hrun).mono fun _ d' hd' => ⟨ws, hd', fun g hg => ?_⟩
  · rw [hsize]
    exact hs.length (.sums false)
  · rw [hsums g, if_pos hg]
    -- Beyond the last column a product counts as zero, and is not summed.
    refine congrArg some (Kernel.groupTotal_congr fun k hk => ?_)
    rw [Board.products, if_pos hk]

omit hw in
/-- The partial sums of partial sums. -/
theorem run_reducePartialSums_gives {second : Bool} {n : Nat} (hn : 0 < n)
    (hle : n ≤ ceilDiv b.numCols width) (hfree : ceilDiv n width * width < UInt32.size)
    {x : Nat → Binary32} (hx : ∀ i < n, (c (.sums second)).number? i = some (x i))
    (htold : a.Tells .reducePartialSums
      [(0, count n), (1, (p.slot (.sums second)).arg), (2, (p.slot (.sums !second)).arg)]) :
    (p.run .reducePartialSums (.linear (ceilDiv n width * width) width)).Gives d fun _ d' =>
      ∃ ws : Words, p.Sees d' a (c.set (.sums !second) ws) ∧ ∀ g < ceilDiv n width,
        ws.number? g = some (groupTotal width n x g) := by
  have hgroups : (LaunchSize.linear (ceilDiv n width * width) width).groups.x
      = ceilDiv n width := by
    rw [LaunchSize.groups_linear hfree hf.width_lt, ceilDiv_mul hf.width_pos]
  have hnVars : n ≤ b.numVars := by
    have := @ceilDiv_le b.numCols width
    rw [Board.numVars]
    omega
  have hlength := hs.length (.sums !second)
  rw [hf.elements] at hlength
  have hroom : ceilDiv n width ≤ (c (.sums !second)).size :=
    Nat.le_trans (Nat.le_trans ceilDiv_le hle) hlength
  -- The launch reads one of the two buffers and writes the other.
  have hnd : [Slot.sums second, .sums !second].Nodup := by cases second <;> decide
  rcases Kernel.reducePartialSums_eq (hs.finds .reducePartialSums
      (.linear (ceilDiv n width * width) width) [n.toUInt32] [.sums second, .sums !second] hnd
      Nat.one_lt_two)
    (hf.word_eq hnVars) (Extent.x_of hf.width_lt) hgroups hf.width_pos hf.width_pow hroom hx with
    ⟨ws, hrun, hsize, hsums⟩
  have hfits : (LaunchSize.linear (ceilDiv n width * width) width).Fits p.geometry.workgroup := by
    refine LaunchSize.fits_linear ⟨?_, hfree⟩ ⟨hf.width_pos, hf.width_lt⟩
      (Nat.le_of_eq hf.workgroup.symm)
    exact Nat.mul_pos (ceilDiv_pos hf.width_pos hn) hf.width_pos
  refine (hs.run_gives htold ⟨rfl, rfl⟩ hfits ?_ hrun).mono fun _ d' hd' =>
    ⟨ws, hd', fun g hg => ?_⟩
  · rw [hsize]
    exact hs.length (.sums !second)
  · rw [hsums g]
    exact if_pos hg

/-- The last sum becomes the value of a variable. -/
theorem run_updateAssignmentComplete_gives (hc : c.Holds b) {second : Bool} {n v : Nat}
    (hn : n ≤ width) (hnVars : n ≤ b.numVars) (hv : v < b.numVars) {x : Nat → Binary32}
    (hx : ∀ i < n, (c (.sums second)).number? i = some (x i))
    (htold : a.Tells .updateAssignmentComplete
      [(0, count n), (1, count v), (2, (p.slot (.sums second)).arg)]) :
    (p.run .updateAssignmentComplete (.linear width width)).Gives d fun _ d' =>
      ∃ ws, p.Sees d' a (c.set .values ws) ∧
        (c.set .values ws).Holds (b.withValue v (groupTotal width n x 0)) := by
  have hlength := hs.length .values
  rw [hf.elements] at hlength
  have hroom : v < (c .values).size := by
    refine Nat.lt_of_lt_of_le ?_ hlength
    rw [Board.numVars] at hv
    show v < b.maxRows + b.numCols
    omega
  have hrun := Kernel.updateAssignmentComplete_eq (hs.finds .updateAssignmentComplete
      (.linear width width) [n.toUInt32, v.toUInt32] [.sums second, .values]
      (by cases second <;> decide) Nat.one_lt_two)
    (hf.word_eq hnVars) (hf.word_eq (Nat.le_of_lt hv)) (Extent.x_of hf.width_lt) hf.width_pos
    hf.width_pow hn hroom hx
  -- One group does all of the work, so the launch is as wide as a group.
  have hfits : (LaunchSize.linear width width).Fits p.geometry.workgroup :=
    LaunchSize.fits_linear ⟨hf.width_pos, hf.width_lt⟩ ⟨hf.width_pos, hf.width_lt⟩
      (Nat.le_of_eq hf.workgroup.symm)
  refine (hs.run_gives ((hw .updateAssignmentComplete).append htold) ⟨rfl, rfl⟩ hfits ?_
    hrun).mono fun _ d' hd' => ⟨_, hd', hc.setValues fun u hu => ?_⟩
  · rw [Array.size_setIfInBounds]
    exact hs.length .values
  · rw [Words.setIfInBounds_eq_modify]
    refine (Words.number?_modify _ v (fun _ => groupTotal width n x 0) u).trans ?_
    -- The total replaces one value; the others were not written.
    by_cases huv : u = v
    · rw [if_pos huv, if_pos huv]
      exact (congrArg _ (hc.vars.values u hu)).trans rfl
    · rw [if_neg huv, if_neg huv]
      exact hc.vars.values u hu

end Sums

end Parallel

end BoundedSimplex
