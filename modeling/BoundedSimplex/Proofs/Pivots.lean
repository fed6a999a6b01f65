import BoundedSimplex.Proofs.Creation

/-!
# The Same Exchange on Both Engines

What the two engines leave behind when they exchange the same two variables.

The sequential engine works through the rows in nested loops. The engine on a
device launches three kernels over more work items than there are cells, copies
the row that is solved, and writes the last cell from the process. Neither way
of working is the other one reordered, and numbers that are rounded do not
forgive a different order of operations. What the two have in common is the
formula of each cell, `exchangedCell`, in which the operations stand in one
order. Each engine was shown to compute it, for every width of a workgroup and
every tile, and so the cells are the same bit for bit.

The basis is kept three times: by each process, and as three tables on the
device. The roles lie in a table of the process on one side and are flags of the
device on the other. `Copies` says that all of it agrees.

Nothing is asked of the board but that the basis belongs to the roles. Its
coefficients can be any numbers, among them those that are none, and also in
rows that are not taken. That every such board is met with, on a device of any
size, is `exists_shows`.

## Main definitions

* `Parallel.word?`: A word of a buffer of the engine.
* `Parallel.Copies`: The device holds what the other engine holds.
* `Sequential.ofBoard`: The tables of the sequential engine for a board.

## Theorems

* `Parallel.Shows.copies`: Engines that describe one board hold the same.
* `Sequential.shows_ofBoard`, `Parallel.exists_shows`: Every board is described
  by both engines.
* `Parallel.pivot_copies`: They hold the same after an exchange.
-/

namespace BoundedSimplex

/-! ### What both engines hold -/

namespace Parallel

/-- A word of a buffer of the engine. -/
def word? (w : Desk) (s : Slot) (i : Nat) : Option UInt32 :=
  (w.engine.device.host.memory.words? (w.engine.handle.slot s).id).bind (·[i]?)

/-- The device holds what the other engine holds: the same cells bit for bit, the same
    owners of rows and columns, and the same roles. Words are compared and not numbers,
    since a number that is none equals nothing. -/
structure Copies (w : Desk) (s : Workspace (Sequential Binary32) Binary32) : Prop where
  shape : w.tableau.SameShape s.tableau
  cells : ∀ r < s.tableau.maxRows, ∀ k < s.tableau.numCols,
    word? w .tableau (r * s.tableau.numCols + k) = (s.tableau.coeff? r k).map (·.bits)
  basis : w.basis = s.basis
  colVar : ∀ k < s.tableau.numCols, (word? w .colVar k).map (·.toNat) = s.basis.colVar? k
  rowVar : ∀ r < s.tableau.maxRows, (word? w .rowVar r).map (·.toNat) = s.basis.rowVar? r
  place : ∀ v < s.engine.bounds.entries.size,
    (word? w .place v).map (·.toNat) = s.basis.place? v
  roles : ∀ v < s.engine.bounds.entries.size,
    word? w .flags v = (s.engine.bounds.entries[v]?).map (·.role.flag)

variable {p : Parallel} {d : Device} {a : Wiring} {c : Contents} {width : Nat} {w : Desk}
  {s : Workspace (Sequential Binary32) Binary32} {b : Board Binary32}

/-- The words of an engine that describes a board are those of the board. -/
theorem Shows.exists_contents (h : Shows width w b) :
    ∃ c : Contents, c.Holds b ∧ ∀ s i, word? w s i = (c s)[i]? := by
  rcases h.stands.holds with ⟨a, c, hs, -, hc⟩
  refine ⟨c, hc, fun s i => ?_⟩
  rw [word?, hs.words s, Option.bind_some]

theorem Shows.word?_cell (h : Shows width w b) {r k : Nat} (hr : r < b.maxRows)
    (hk : k < b.numCols) : word? w .tableau (r * b.numCols + k) = some (b.coeff r k).bits := by
  rcases h.exists_contents with ⟨c, hc, hword⟩
  have hcell := hc.cells r hr k hk
  rw [Words.cell?_eq_number? hk, Words.number?, Option.map_eq_some_iff] at hcell
  rcases hcell with ⟨u, hu, hbits⟩
  rw [hword, hu, ← hbits]

theorem Shows.word?_value (h : Shows width w b) {v : Nat} (hv : v < b.numVars) :
    word? w .values v = some (b.value v).bits := by
  rcases h.exists_contents with ⟨c, hc, hword⟩
  have hvalue := hc.vars.values v hv
  rw [Words.number?, Option.map_eq_some_iff] at hvalue
  rcases hvalue with ⟨u, hu, hbits⟩
  rw [hword, hu, ← hbits]

/-- Engines that describe one board hold the same. Both describe the board word for word,
    and this is why nothing has to be said of the arithmetic. -/
theorem Shows.copies (h : Shows width w b) (h' : Sequential.Shows s b)
    (hm : b.basis.Matches b.maxRows b.numCols b.role) : Copies w s := by
  rcases h.exists_contents with ⟨c, hc, hword⟩
  -- What the engine in the process holds is what the board says, and the device holds the same as
  -- words.
  have hrows := h'.tableau.maxRows
  have hcols := h'.tableau.numCols
  have hvars := h'.bounds.size
  refine ⟨⟨h.sized.maxRows.trans hrows.symm, h.sized.numRows.trans h'.tableau.numRows.symm,
    h.sized.numCols.trans hcols.symm⟩, fun r hr k hk => ?_, h.basis.trans h'.basis.symm,
    fun k hk => ?_, fun r hr => ?_, fun v hv => ?_, fun v hv => ?_⟩
  · rw [h'.tableau.coeff r hr k hk, hcols]
    rw [hrows] at hr
    rw [hcols] at hk
    rw [h.word?_cell hr hk, Option.map_some]
  · rw [hcols] at hk
    rw [hword, h'.basis, hm.colVar?_eq hk]
    exact hc.tables.colVar k hk
  · rw [hrows] at hr
    rw [hword, h'.basis, hm.rowVar?_eq hr]
    exact hc.tables.rowVar r hr
  · rw [hvars] at hv
    rw [hword, h'.basis, hm.place?_eq hv]
    exact hc.tables.place v hv
  · rw [hvars] at hv
    rw [hword, h'.bounds.entry v hv]
    exact hc.vars.flags v hv

end Parallel

/-! ### Every board is described -/

namespace Sequential

variable {α : Type} {b : Board α}

/-- The variables with a role. -/
def members (b : Board α) (r : Role) : VarSet where
  members := (List.range b.numVars).filter fun v => decide (b.role v = r)
  ascending := List.pairwise_lt_range.filter _

/-- The tables of the engine for a board. Any board with correct sizes can be shown in this
    way, not only one that a search comes to. -/
def ofBoard (b : Board α) : Workspace (Sequential α) α where
  tableau :=
    { maxRows := b.maxRows
      numCols := b.numCols
      numRows := b.numRows
      cells := (Array.range (b.maxRows * b.numCols)).map fun i =>
        b.coeff (i / b.numCols) (i % b.numCols)
      size_cells := by rw [Array.size_map, Array.size_range] }
  basis := b.basis
  engine :=
    { bounds := ⟨(Array.range b.numVars).map b.entry, b.tolerance⟩
      basic := members b .basic
      nonbasic := members b .nonbasic }

theorem mem_members {v : Nat} {r : Role} :
    v ∈ members b r ↔ v < b.numVars ∧ decide (b.role v = r) = true := by
  show v ∈ (List.range b.numVars).filter _ ↔ _
  rw [List.mem_filter, List.mem_range]

theorem shows_ofBoard (b : Board α) : Shows (ofBoard b) b := by
  refine ⟨⟨rfl, rfl, rfl, fun r hr k hk => ?_⟩, rfl, ⟨?_, fun v hv => ?_, rfl⟩,
    fun v => mem_members, fun v => mem_members⟩
  · have hk' : k < b.numCols := hk
    have hlt : r * b.numCols + k < b.maxRows * b.numCols := cellIndex_lt hr hk
    rw [Tableau.coeff?_eq_cell? hk, Tableau.cell?]
    show ((Array.range (b.maxRows * b.numCols)).map _)[r * b.numCols + k]? = _
    rw [Array.getElem?_map, Array.getElem?_range, if_pos hlt, Option.map_some, Nat.mul_comm r,
      Nat.mul_add_div (Nat.zero_lt_of_lt hk'), Nat.div_eq_of_lt hk', Nat.add_zero,
      Nat.mul_add_mod, Nat.mod_eq_of_lt hk']
  · show ((Array.range b.numVars).map b.entry).size = _
    rw [Array.size_map, Array.size_range]
  · show ((Array.range b.numVars).map b.entry)[v]? = _
    rw [Array.getElem?_map, Array.getElem?_range, if_pos hv, Option.map_some]

end Sequential

/-- The role of one variable is replaced. -/
theorem Contents.Variables.withRole {c : Contents} {b : Board Binary32} (h : c.Variables b)
    (v : Nat) (r : Role) :
    (c.set .flags ((c .flags).setIfInBounds v r.flag)).Variables
      { b with role := fun u => if u = v then r else b.role u } := by
  refine ⟨?_, fun u hu => ?_, fun u hu => ?_⟩
  · rw [Contents.set_other (by decide), Contents.set_other (by decide),
      Contents.set_other (by decide)]
    exact h.bounds
  · rw [Contents.set_other (by decide)]
    exact h.values u hu
  · have hflag := h.flags u hu
    rcases Array.getElem?_eq_some_iff.mp hflag with ⟨hlt, -⟩
    rw [Contents.set_same, Array.getElem?_setIfInBounds]
    -- Only the flag of this variable is another one.
    by_cases huv : v = u
    · simp only [huv, if_true, hlt]
    · simp only [if_neg huv, if_neg (Ne.symm huv), hflag]

namespace Parallel

variable {p : Parallel} {d : Device} {a : Wiring} {c : Contents} {width : Nat} {b : Board Binary32}

/-- The roles of all variables are replaced, one after the other. -/
theorem writeRoles_gives (hf : p.Fits width b) (hs : p.Sees d a c) (hvars : c.Variables b)
    (role : Nat → Role) :
    ((List.range b.numVars).forM fun v => p.bounds.writeRole v (role v)).Gives d fun _ d' =>
      ∃ c', p.Sees d' a c' ∧ c'.Variables { b with role := role } := by
  -- The variables whose turn is still to come have the roles they had.
  let I : List Nat → Device → Prop := fun rest d => (∀ v ∈ rest, v < b.numVars) ∧
    ∃ c role', p.Sees d a c ∧ c.Variables { b with role := role' } ∧
      ∀ u < b.numVars, u ∉ rest → role' u = role u
  have hstart : I (List.range b.numVars) d := ⟨fun v hv => List.mem_range.mp hv, c, b.role, hs,
    hvars, fun u hu hnot => absurd (List.mem_range.mpr hu) hnot⟩
  refine (Exec.Gives.forM I ?_ _ d hstart).mono ?_
  · rintro v rest d₁ ⟨hlt, c₁, role₁, h₁, hvars₁, hdone⟩
    refine (writeRole_gives hf h₁ (hlt v List.mem_cons_self) (role v)).mono fun _ d₂ h₂ => ?_
    refine ⟨fun u hu => hlt u (List.mem_cons_of_mem _ hu), _, _, h₂, hvars₁.withRole v (role v),
      fun u hu hnot => ?_⟩
    by_cases huv : u = v
    · rw [if_pos huv, huv]
    · rw [if_neg huv]
      refine hdone u hu fun hmem => ?_
      rcases List.mem_cons.mp hmem with heq | hmem
      · exact huv heq
      · exact hnot hmem
  · rintro _ d' ⟨-, c', role', h', hvars', hdone⟩
    refine ⟨c', h', hvars'.bounds, hvars'.values, fun v hv => ?_⟩
    rw [hvars'.flags v hv]
    exact congrArg (fun r => some r.flag) (hdone v hv List.not_mem_nil)

/-- The board as a new engine describes it. The bounds and the values of the variables
    are those at first. -/
def atFirst (b : Board Binary32) (tolerance : Binary32) : Board Binary32 :=
  { b with
    interval := fun _ => .nonnegative
    value := fun _ => 0
    tolerance := tolerance }

/-- Every board whose chunk and variables fit machine words is described by an engine
    that was made on a device, whatever workgroups the device and the caller allow. The
    tableau is still in the process only. -/
theorem exists_ready (host : HostDevice) (config : Config Binary32)
    (hlimit : host.info.maxWorkgroupSize ≠ 0) (hcap : config.maxWorkgroupSize ≠ some 0)
    (hchunk : (Geometry.ofDevice host.info config.maxWorkgroupSize).chunk < UInt32.size)
    (hrows : b.maxRows ≠ 0) (hcols : b.numCols ≠ 0)
    (hsize : b.maxRows + b.numCols < UInt32.size) :
    ∃ w : Desk, w.engine.handle.geometry = .ofDevice host.info config.maxWorkgroupSize ∧
      Ready w.engine.handle.geometry.workgroup w (atFirst b config.tolerance) := by
  rcases create_gives (Device.serves_toHost host) rfl hrows hcols hsize hcap
    hlimit hchunk #[] with ⟨p, d, j, -, hgeometry, hprepared, hfits, c, hs, hvars⟩
  rcases writeRoles_gives hfits hs hvars b.role j with ⟨-, d', j', -, c', hs', hvars'⟩
  have htableau := (Sequential.shows_ofBoard b).tableau
  exact ⟨⟨(Sequential.ofBoard b).tableau, b.basis, ⟨p, d'⟩⟩, hgeometry,
    ⟨htableau.maxRows, htableau.numRows, htableau.numCols, htableau.coeff⟩, rfl,
    hfits.of_eq rfl rfl rfl, hprepared, _, c', hs', hvars'.bounds, hvars'.values, hvars'.flags⟩

/-- If it was also prepared, the board is on the device as well. That the bounds and the
    values are those at first is no loss, since an exchange does not look at them. -/
theorem exists_shows (host : HostDevice) (config : Config Binary32)
    (hlimit : host.info.maxWorkgroupSize ≠ 0) (hcap : config.maxWorkgroupSize ≠ some 0)
    (hchunk : (Geometry.ofDevice host.info config.maxWorkgroupSize).chunk < UInt32.size)
    (hrows : b.maxRows ≠ 0) (hcols : b.numCols ≠ 0) (hsize : b.maxRows + b.numCols < UInt32.size)
    (hm : b.basis.Matches b.maxRows b.numCols b.role) :
    ∃ w : Desk, w.engine.handle.geometry = .ofDevice host.info config.maxWorkgroupSize ∧
      Shows w.engine.handle.geometry.workgroup w (atFirst b config.tolerance) := by
  rcases exists_ready host config hlimit hcap hchunk hrows hcols hsize with
    ⟨w, hgeometry, hready⟩
  rcases prepare_gives hready hm #[] with ⟨-, w', j, -, hshows, hkept⟩
  rw [← hkept] at hshows
  exact ⟨w', hkept.trans hgeometry, hshows⟩

end Parallel

/-! ### The exchange -/

section Exchange

variable {width leaving entering : Nat} {w : Desk} {s : Workspace (Sequential Binary32) Binary32}
  {b : Board Binary32}

/-- Exchanging a variable that owns a row that is taken with one that owns a column,
    if their coefficient is not zero, succeeds on both engines, and they hold the same
    afterwards. The cells are those of the formula, rows that are not taken are as
    before, and the two variables have changed places and roles. -/
theorem Parallel.pivot_copies (h : Shows width w b) (h' : Sequential.Shows s b)
    (hm : b.basis.Matches b.maxRows b.numCols b.role) (hle : b.numRows ≤ b.maxRows)
    (hl : leaving < b.numVars) (he : entering < b.numVars) (hlb : b.role leaving = .basic)
    (hen : b.role entering = .nonbasic) (hrow : b.basis.placeOf leaving < b.numRows)
    (halpha : (b.cross leaving entering).eq 0 = false) :
    (pivot leaving entering : Exec Desk Unit).Gives w fun _ w' =>
      (Sequential.pivot leaving entering :
          Exec (Workspace (Sequential Binary32) Binary32) Unit).Gives s fun _ s' =>
        Copies w' s' ∧
          (∀ r < b.maxRows, ∀ k < b.numCols, s'.tableau.coeff? r k = some
            (exchangedCell b.numRows (b.basis.placeOf leaving) (b.basis.placeOf entering)
              b.coeff r k)) ∧
          (∀ r, b.numRows ≤ r → r < b.maxRows → ∀ k < b.numCols,
            s'.tableau.coeff? r k = s.tableau.coeff? r k ∧
              word? w' .tableau (r * b.numCols + k) = word? w .tableau (r * b.numCols + k)) ∧
          s'.basis = b.basis.swapped leaving entering ∧
          ∀ v < b.numVars, (s'.engine.bounds.entries[v]?).map (·.role)
            = some (exchangedRole b.role leaving entering v) := by
  refine (pivot_gives h hm hle hl he hlb hen hrow halpha).mono fun _ w' hw' => ?_
  refine (Sequential.pivot_gives h' hm hle hl he hlb hen hrow).mono fun _ s' hs' => ?_
  have hcell : ∀ r < b.maxRows, ∀ k < b.numCols,
      s'.tableau.coeff? r k = some ((b.exchanged leaving entering).coeff r k) :=
    fun r hr k hk => hs'.tableau.coeff?_eq hr hk
  refine ⟨hw'.copies hs' (hm.swapped hl he hlb hen), hcell, fun r hfree hr k hk => ?_, hs'.basis,
    fun v hv => ?_⟩
  · -- The row is not the one that was solved, since that one is taken.
    have hkept : (b.exchanged leaving entering).coeff r k = b.coeff r k := by
      show exchangedCell _ _ _ _ _ _ = _
      rw [exchangedCell, if_neg (by omega), if_neg (by omega)]
    have hword := hw'.word?_cell hr hk
    rw [hkept] at hword
    refine ⟨?_, hword.trans (h.word?_cell hr hk).symm⟩
    rw [hcell r hr k hk, hkept, h'.tableau.coeff?_eq hr hk]
  · rw [hs'.bounds.entry v hv]
    rfl

/-- A board of three rows and two columns. Two rows are taken, with the coefficients 2
    and 4 in one and 3 and 5 in the other, and the last one holds what is no number. -/
def Board.twoTaken : Board Binary32 where
  maxRows := 3
  numRows := 2
  numCols := 2
  coeff := fun r k => match r, k with
    | 0, 0 => ⟨0x40000000⟩
    | 0, _ => ⟨0x40800000⟩
    | 1, 0 => ⟨0x40400000⟩
    | 1, _ => ⟨0x40a00000⟩
    | _, _ => ⟨0x7fc00000⟩
  basis := .ofDimensions 3 2
  interval := fun _ => .nonnegative
  value := fun _ => 0
  role := .initial 2
  tolerance := Config.standard.tolerance

/-- On that board the first slack can be exchanged with the first column, with
    workgroups of four items. Every part of the exchange changes a cell: the row becomes
    1/2 and -2, and the other one 3/2 and 5 - 4 * 3 / 2. -/
theorem Parallel.pivot_copies_twoTaken :
    ∃ (w : Desk) (s : Workspace (Sequential Binary32) Binary32),
      w.engine.handle.geometry = .ofDevice (HostDevice.idle ⟨4, 1⟩).info none ∧
        (pivot 2 0 : Exec Desk Unit).Gives w fun _ w' =>
          (Sequential.pivot 2 0 :
            Exec (Workspace (Sequential Binary32) Binary32) Unit).Gives s fun _ s' =>
              Copies w' s' ∧
                s'.tableau.coeff? 0 0 = some ⟨0x3f000000⟩ ∧
                s'.tableau.coeff? 0 1 = some ⟨0xc0000000⟩ ∧
                s'.tableau.coeff? 1 0 = some ⟨0x3fc00000⟩ ∧
                s'.tableau.coeff? 1 1 = some ⟨0xbf800000⟩ := by
  have hm : Board.twoTaken.basis.Matches 3 2 Board.twoTaken.role :=
    Basis.matches_ofDimensions 3 2
  rcases exists_shows (b := Board.twoTaken) (.idle ⟨4, 1⟩) Config.standard (by decide)
    (by decide) (by decide) (by decide) (by decide) (by decide) hm with ⟨w, hgeometry, hw⟩
  refine ⟨w, Sequential.ofBoard Board.twoTaken, hgeometry, ?_⟩
  refine (pivot_copies hw (Sequential.shows_ofBoard Board.twoTaken) hm (by decide) (by decide)
    (by decide) (by decide) (by decide) (by decide) (by decide)).mono fun _ w' hw' => ?_
  refine hw'.mono fun _ s' hs' => ?_
  rcases hs' with ⟨hcopies, hcells, -⟩
  -- The four cells are evaluated from the formula.
  refine ⟨hcopies, (hcells 0 (by decide) 0 (by decide)).trans ?_,
    (hcells 0 (by decide) 1 (by decide)).trans ?_, (hcells 1 (by decide) 0 (by decide)).trans ?_,
    (hcells 1 (by decide) 1 (by decide)).trans ?_⟩ <;> decide +kernel

end Exchange

end BoundedSimplex
