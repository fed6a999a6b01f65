import BoundedSimplex.Proofs.Bookkeeping
import BoundedSimplex.Proofs.Pivots

/-!
# The Order of Rows

Recomputing the rows that are taken, on both engines.

Each engine goes through the rows from the first one to the last and writes every
value where the sums of later rows are read from. One of them adds up a row in a loop
over a table; the other one launches kernels whose partial sums lie in two buffers
that all rows share. Neither has to know that the order makes no difference. It makes
none because a row, on either engine, does to the numbers what `Board.recomputedRow`
says, for whatever numbers are there: values of rows that were recomputed before,
infinities, or what is no number at all.

So it is asked of an engine that some rows, one after the other, do what they do on a
board, with a sum of its own. All else is about boards. The two engines differ in their
sums, and the order makes no difference for either, although both sums depend on the
order of the columns.

The basis has to give every variable one place. Nothing else is asked of the state: the
numbers are any, and the roles and sets of the variables need not go with the basis.

An engine on a device counts the items of a row in a word, and a row that is longer than
that is an end before anything was summed. Then the order makes no difference for another
reason: all is as it was, in whatever order the rows are asked for.

## Main definitions

* `Recomputing`: How an engine recomputes some rows, and what is seen of it.
* `Recomputing.RowsCommute`: The order of the rows and how often they are recomputed
  make no difference.
* `Recomputing.OnBoards`: An engine that does to its numbers what is done on a board.
* `Sequential.Kept`, `Parallel.Kept`: What stays as it was.
* `Parallel.RowsRefused`: No row is recomputed, and no value changes.

## Theorems

* `Recomputing.OnBoards.rowsCommute`: On such an engine the order makes no difference.
* `Sequential.onBoards`, `Parallel.onBoards`: Both engines are such engines.
* `Parallel.rowsRefused`: Rows that are too long.
* `rows_commute`: All workspaces of both engines.
-/

namespace BoundedSimplex

/-- There are no more rows taken than there is room for, and every variable owns one
    place. -/
structure Workspace.Placed {β α : Type} (w : Workspace β α) : Prop where
  basis : w.basis.Bijective w.tableau.maxRows w.tableau.numCols
  numRows_le : w.tableau.numRows ≤ w.tableau.maxRows

/-! ### What is seen of it -/

/-- How an engine recomputes some rows, and what is seen of it. Values are compared in the
    form in which the engine keeps them, words on a device and numbers in the process. -/
structure Recomputing (β α ν : Type) where
  /-- Some rows, one after the other. -/
  rows : List Nat → Exec (Workspace β α) Unit
  /-- The value of a variable, as the engine keeps it. -/
  value? : Workspace β α → Nat → Option ν
  /-- All is as it was, except for values. -/
  Kept : Workspace β α → Workspace β α → Prop

namespace Recomputing

variable {β α ν : Type} [Scalar α] [Engine β α]

/-- Two workspaces have the same values. -/
def SameValues (R : Recomputing β α ν) (w w' : Workspace β α) : Prop :=
  ∀ v < w.tableau.numCols + w.tableau.maxRows, R.value? w' v = R.value? w v

/-- Recomputing the rows that are taken comes to an end. It changes no values but those of
    the owners of these rows. Taking the rows in any other order leads to the same values,
    and so does doing it twice. The reason is the same for all three: a row is computed from
    the owners of columns, and these own no row. -/
structure RowsCommute (R : Recomputing β α ν) (w : Workspace β α) : Prop where
  framed : (Engine.updateAssignment : Exec (Workspace β α) Unit).Gives w fun _ w' =>
    R.Kept w w' ∧ ∀ v < w.tableau.numCols + w.tableau.maxRows,
      (∀ r < w.tableau.numRows, w.basis.rowVar? r ≠ some v) → R.value? w' v = R.value? w v
  ordered : ∀ rows : List Nat, rows.Perm (List.range w.tableau.numRows) →
    (Engine.updateAssignment : Exec (Workspace β α) Unit).Gives w fun _ w' =>
      (R.rows rows).Gives w fun _ w'' => R.Kept w w'' ∧ R.SameValues w' w''
  repeated : (Engine.updateAssignment : Exec (Workspace β α) Unit).Gives w fun _ w' =>
    (Engine.updateAssignment : Exec (Workspace β α) Unit).Gives w' fun _ w'' =>
      R.Kept w' w'' ∧ R.SameValues w' w''

/-- An engine that does to its numbers what is done on a board. `Reads` says that a
    workspace has the numbers of a board, and nothing of the roles. So a board can be chosen
    whose roles agree with the basis, whatever the roles in the workspace are. -/
structure OnBoards (R : Recomputing β α ν) (sum : Summation α)
    (Reads : Workspace β α → Board α → Prop) : Prop where
  sized : ∀ {w b}, Reads w b → w.tableau.Sized b
  basis : ∀ {w b}, Reads w b → w.basis = b.basis
  value : ∀ {w w' b b' v}, Reads w b → Reads w' b' → v < b.numVars → v < b'.numVars →
    b'.value v = b.value v → R.value? w' v = R.value? w v
  rows : ∀ {w b role rows}, Reads w b → b.basis.Matches b.maxRows b.numCols role →
    (∀ r ∈ rows, r < b.maxRows) → (R.rows rows).Gives w fun _ w' =>
      Reads w' (b.recomputedRows sum rows) ∧ R.Kept w w'
  all : ∀ {w b}, Reads w b → ∀ j, (Engine.updateAssignment : Exec (Workspace β α) Unit) ⟨w, j⟩
    = R.rows (List.range b.numRows) ⟨w, j⟩

variable {R : Recomputing β α ν} {sum : Summation α} {Reads : Workspace β α → Board α → Prop}
  {w w' : Workspace β α} {b : Board α} {role : Nat → Role}

theorem OnBoards.all_gives (hR : R.OnBoards sum Reads) (h : Reads w b)
    (hm : b.basis.Matches b.maxRows b.numCols role) (hle : b.numRows ≤ b.maxRows) :
    (Engine.updateAssignment : Exec (Workspace β α) Unit).Gives w fun _ w' =>
      Reads w' (b.recomputedRows sum (List.range b.numRows)) ∧ R.Kept w w' := by
  intro j
  rw [hR.all h j]
  exact hR.rows h hm (fun r hr => Nat.lt_of_lt_of_le (List.mem_range.mp hr) hle) j

/-- Workspaces with the numbers of one board have the same values. -/
theorem OnBoards.sameValues (hR : R.OnBoards sum Reads) (h : Reads w b) (h' : Reads w' b) :
    R.SameValues w w' := by
  intro v hv
  rw [(hR.sized h).numCols, (hR.sized h).maxRows] at hv
  exact hR.value h h' hv hv rfl

/-- On such an engine the order makes no difference. On a board this is so because the
    products of a row do not change, and the engine does what is done on the board. -/
theorem OnBoards.rowsCommute (hR : R.OnBoards sum Reads) (h : Reads w b) (hw : w.Placed) :
    R.RowsCommute w := by
  rcases hw.basis.exists_matches with ⟨role, hm⟩
  rcases hR.sized h with ⟨hmaxRows, hnumRows, hnumCols⟩
  have hle := hw.numRows_le
  rw [hR.basis h, hmaxRows, hnumCols] at hm
  rw [hnumRows, hmaxRows] at hle
  have hlt : ∀ r ∈ List.range b.numRows, r < b.maxRows :=
    fun r hr => Nat.lt_of_lt_of_le (List.mem_range.mp hr) hle
  have hall := hR.all_gives h hm hle
  refine ⟨hall.mono ?_, fun rows hperm => hall.mono ?_, hall.mono ?_⟩
  · rintro _ w' ⟨h', hkept⟩
    refine ⟨hkept, fun v hv hother => ?_⟩
    rw [hnumCols, hmaxRows] at hv
    refine hR.value h h' hv (by rw [(Board.same_recomputedRows _).numVars]; exact hv) ?_
    refine Board.value_recomputedRows_other fun r hr heq => ?_
    rw [hnumRows, hR.basis h] at hother
    exact hother r (List.mem_range.mp hr) (by rw [heq, hm.rowVar?_eq (hlt r hr)])
  · rintro _ w' ⟨h', -⟩
    rw [hnumRows] at hperm
    have hsame : ∀ r, r ∈ rows ↔ r ∈ List.range b.numRows := fun r => hperm.mem_iff
    refine (hR.rows h hm fun r hr => hlt r ((hsame r).mp hr)).mono ?_
    rintro _ w'' ⟨h'', hkept⟩
    rw [Board.recomputedRows_congr hm hlt hsame] at h''
    exact ⟨hkept, hR.sameValues h' h''⟩
  · rintro _ w' ⟨h', -⟩
    -- The second time the rows are appended to those of the first time.
    have hsame : ∀ r, r ∈ List.range b.numRows ++ List.range b.numRows ↔ r ∈ List.range b.numRows :=
      fun r => by rw [List.mem_append, or_self]
    have hsize : (b.recomputedRows sum (List.range b.numRows)).Same b :=
      Board.same_recomputedRows _
    refine (hR.all_gives h' (Board.matches_recomputedRows hm _)
      (by rw [hsize.numRows, hsize.maxRows]; exact hle)).mono ?_
    rintro _ w'' ⟨h'', hkept⟩
    rw [hsize.numRows, ← Board.recomputedRows_append,
      Board.recomputedRows_congr hm hlt hsame] at h''
    exact ⟨hkept, hR.sameValues h' h''⟩

end Recomputing

/-! ### The sequential engine -/

namespace Sequential

section Tables

variable {α : Type} {w w' : Workspace (Sequential α) α} {b : Board α}

/-- The tableau, the basis and the sets are as they were, and so are the bounds and the
    roles of all variables. -/
structure Kept (w w' : Workspace (Sequential α) α) : Prop where
  tableau : w'.tableau = w.tableau
  basis : w'.basis = w.basis
  basic : w'.engine.basic = w.engine.basic
  nonbasic : w'.engine.nonbasic = w.engine.nonbasic
  tolerance : w'.engine.bounds.tolerance = w.engine.bounds.tolerance
  bounds : w'.engine.bounds.entries.map (fun x => (x.interval, x.role))
    = w.engine.bounds.entries.map fun x => (x.interval, x.role)

/-- Tables with the numbers of boards that differ in their values. -/
theorem Holds.kept (h : Holds w b) {x : Nat → α} (h' : Holds w' { b with value := x })
    (hbasic : w'.engine.basic = w.engine.basic)
    (hnonbasic : w'.engine.nonbasic = w.engine.nonbasic) : Kept w w' := by
  have htableau : w'.tableau.Describes b :=
    ⟨h'.tableau.maxRows, h'.tableau.numRows, h'.tableau.numCols, h'.tableau.coeff⟩
  refine ⟨htableau.unique h.tableau, h'.basis.trans h.basis.symm, hbasic, hnonbasic,
    h'.bounds.tolerance.trans h.bounds.tolerance.symm, Array.ext_getElem? fun v => ?_⟩
  rw [Array.getElem?_map, Array.getElem?_map]
  -- An entry is its interval, its value and its role, and of these only the value may differ.
  by_cases hv : v < b.numVars
  · rw [h'.bounds.entry v hv, h.bounds.entry v hv]
    rfl
  · have hle := Nat.le_of_not_lt hv
    have hsize : w'.engine.bounds.entries.size = b.numVars := h'.bounds.size
    rw [Array.getElem?_eq_none (by rw [hsize]; exact hle),
      Array.getElem?_eq_none (by rw [h.bounds.size]; exact hle)]

variable [Scalar α]

/-- The rows of the engine. -/
def recomputing : Recomputing (Sequential α) α α where
  rows := updateRows
  value? w v := (w.engine.bounds.entries[v]?).map (·.value)
  Kept := Kept

theorem onBoards : (recomputing (α := α)).OnBoards leftSum Holds where
  sized h := h.tableau.sized
  basis h := h.basis
  value h h' hv hv' heq := by
    simp only [recomputing, h.bounds.entry _ hv, h'.bounds.entry _ hv', Option.map_some,
      Board.entry, heq]
  rows h hm hlt := by
    refine (updateRows_gives h hm hlt).mono ?_
    rintro _ w' ⟨h', hbasic, hnonbasic⟩
    rw [Board.recomputedRows_eq] at h' ⊢
    exact ⟨h', h.kept h' hbasic hnonbasic⟩
  all h j := by
    rw [← h.tableau.numRows]
    rfl

end Tables

end Sequential

/-! ### The engine on a device -/

namespace Parallel

variable {w w' : Desk} {b : Board Binary32} {width : Nat}

/-- Recompute the basic variables of some rows, one after the other. -/
def updateRows (rows : List Nat) : Exec Desk Unit := do
  let w ← Exec.state
  onDevice fun p => do
    p.ensurePrepared
    rows.forM (p.updateRow w.basis)

/-- What the process knows is as it was, and so are all buffers but those of the values
    and of the partial sums. -/
structure Kept (w w' : Desk) : Prop where
  tableau : w'.tableau = w.tableau
  basis : w'.basis = w.basis
  handle : w'.engine.handle = w.engine.handle
  words : ∀ s, s ≠ .values → (∀ k, s ≠ .sums k) → ∀ i, word? w' s i = word? w s i

/-- The rows of the engine. -/
def recomputing : Recomputing (Attached Parallel) Binary32 UInt32 where
  rows := updateRows
  value? w v := word? w .values v
  Kept := Kept

/-- The engine describes a board, and nothing keeps it from summing the rows. -/
structure Reads (width : Nat) (w : Desk) (b : Board Binary32) : Prop where
  shows : Shows width w b
  free : sumObstacle width b.numCols = none

/-- What a sum of rows on the device comes to for the workspace. -/
theorem Reads.of_summed (h : Reads width w b) {d : Device} {x : Nat → Binary32}
    (hd : w.engine.handle.Stands width d { b with value := x })
    (hsummed : w.engine.handle.Summed w.engine.device d) :
    Reads width ⟨w.tableau, w.basis, ⟨w.engine.handle, d⟩⟩ { b with value := x } ∧
      Kept w ⟨w.tableau, w.basis, ⟨w.engine.handle, d⟩⟩ := by
  refine ⟨⟨⟨⟨h.shows.sized.maxRows, h.shows.sized.numRows, h.shows.sized.numCols⟩, h.shows.basis,
    hd⟩, h.free⟩, rfl, rfl, rfl, fun s hvalues hsums i => ?_⟩
  rw [word?, word?, hsummed s hvalues hsums]

theorem onBoards (width : Nat) : recomputing.OnBoards (groupedSum width) (Reads width) where
  sized h := h.shows.sized
  basis h := h.shows.basis
  value h h' hv hv' heq := by
    simp only [recomputing, h.shows.word?_value hv, h'.shows.word?_value hv', heq]
  rows {w b role rows} h hm hlt := by
    refine Exec.Yields.state.gives ?_
    rw [h.shows.basis]
    -- The rows leave the sums of the board, and touch nothing but the values and the partial
    -- sums.
    have hrows := updateRows_gives h.shows.stands hm hlt h.free
    refine (onDevice_gives ((ensurePrepared_gives h.shows.stands.prepared).bind
      (R := fun _ d' => w.engine.handle.Stands width d' (b.recomputedRows (groupedSum width) rows) ∧
        w.engine.handle.Summed w.engine.device d') ?_)).mono ?_
    · rintro _ _ rfl
      exact hrows
    · rintro _ _ ⟨d', ⟨hd', hsummed⟩, rfl⟩
      rw [Board.recomputedRows_eq] at hd' ⊢
      exact h.of_summed hd' hsummed
  all {w b} h j := by
    rw [← h.shows.stands.numRows]
    rfl

/-! ### Rows that are too long -/

/-- All is as it was, the values too. If that is an end it is because of a number that
    does not fit a word. -/
def Idles (w : Desk) (act : Exec Desk Unit) : Prop :=
  act.Ends w (fun _ w' => Kept w w' ∧ recomputing.SameValues w w')
    fun e w' => e = .overflow ∧ Kept w w' ∧ recomputing.SameValues w w'

/-- Recomputing the rows that are taken, in any order, and doing it twice, changes no
    value, and it only ends well if there are none. -/
structure RowsRefused (w : Desk) : Prop where
  framed : Idles w Engine.updateAssignment
  stops : 0 < w.tableau.numRows →
    (Engine.updateAssignment : Exec Desk Unit).Stops w .overflow fun _ => True
  ordered : ∀ rows : List Nat, rows.Perm (List.range w.tableau.numRows) → Idles w (updateRows rows)
  repeated : (Engine.updateAssignment : Exec Desk Unit).Ends w
    (fun _ w' => Idles w' Engine.updateAssignment) fun _ w' => Idles w' Engine.updateAssignment

section TooLong

variable (h : Shows width w b)
include h

/-- What is left if only arguments were bound. -/
theorem Shows.of_stands {d : Device} (hd : w.engine.handle.Stands width d b)
    (hsummed : w.engine.handle.Summed w.engine.device d) :
    Shows width ⟨w.tableau, w.basis, ⟨w.engine.handle, d⟩⟩ b ∧
      Kept w ⟨w.tableau, w.basis, ⟨w.engine.handle, d⟩⟩ := by
  refine ⟨⟨h.sized, h.basis, hd⟩, rfl, rfl, rfl, fun s hvalues hsums i => ?_⟩
  rw [word?, word?, hsummed s hvalues hsums]

/-- No row is asked for. -/
theorem updateRows_nil : (updateRows []).Gives w fun _ w' => Shows width w' b ∧ Kept w w' := by
  refine Exec.Yields.state.gives ?_
  refine (onDevice_gives (P := fun _ d' => d' = w.engine.device) ?_).mono ?_
  · refine (ensurePrepared_gives h.stands.prepared).bind ?_
    rintro _ _ rfl
    exact Exec.Gives.pure rfl
  · rintro _ _ ⟨_, rfl, rfl⟩
    exact h.of_stands h.stands (.refl _ _)

variable (hover : UInt32.size ≤ ceilDiv b.numCols width * width)
include hover

/-- The first row that is asked for is an end. -/
theorem updateRows_cons (r : Nat) (rest : List Nat) : (updateRows (r :: rest)).Stops w .overflow
    fun w' => Shows width w' b ∧ Kept w w' := by
  refine Exec.Yields.state.stops ?_
  rw [h.basis]
  refine (onDevice_stops (P := fun d' => w.engine.handle.Stands width d' b ∧
    w.engine.handle.Summed w.engine.device d') ?_).mono ?_
  · refine Exec.Stops.after (ensurePrepared_gives h.stands.prepared) ?_
    rintro _ _ rfl
    exact (updateRow_overflows h.stands r hover).bind
  · rintro _ ⟨d', ⟨hd', hsummed⟩, rfl⟩
    exact h.of_stands hd' hsummed

/-- Whatever rows are asked for, the engine describes the same board as before. -/
theorem updateRows_ends (rows : List Nat) :
    (updateRows rows).Ends w (fun _ w' => Shows width w' b ∧ Kept w w')
      fun e w' => e = .overflow ∧ Shows width w' b ∧ Kept w w' := by
  cases rows with
  | nil => exact (updateRows_nil h).ends
  | cons r rest => exact ((updateRows_cons h hover r rest).mono fun _ h' => ⟨rfl, h'⟩).ends

omit hover in
/-- The engine recomputes all rows one after the other, from the first one on. -/
theorem updateAssignment_eq (j : Journal) : (Engine.updateAssignment : Exec Desk Unit) ⟨w, j⟩
    = updateRows (List.range b.numRows) ⟨w, j⟩ := by
  rw [← h.stands.numRows]
  rfl

end TooLong

/-- Engines that describe one board have the same values. -/
theorem Shows.sameValues (h : Shows width w b) (h' : Shows width w' b) :
    recomputing.SameValues w w' := by
  intro v hv
  rw [h.sized.numCols, h.sized.maxRows] at hv
  have hlt : v < b.numVars := hv
  exact (h'.word?_value hlt).trans (h.word?_value hlt).symm

/-- Rows that are too long are refused, all of them, for they all have the same length. -/
theorem rowsRefused (h : Shows width w b)
    (hover : UInt32.size ≤ ceilDiv b.numCols width * width) : RowsRefused w := by
  -- A list of rows stops at its first, and an empty one does nothing. In both cases the values
  -- are those from before.
  have hidle : ∀ {w : Desk}, Shows width w b → ∀ rows, Idles w (updateRows rows) := by
    intro w h rows
    refine (updateRows_ends h hover rows).mono ?_ ?_
    · rintro _ w' ⟨h', hkept⟩
      exact ⟨hkept, h.sameValues h'⟩
    · rintro e w' ⟨he, h', hkept⟩
      exact ⟨he, hkept, h.sameValues h'⟩
  -- To recompute all rows is to recompute a list of them.
  have hall : ∀ {w : Desk}, Shows width w b → Idles w Engine.updateAssignment := by
    intro w h j
    rw [updateAssignment_eq h j]
    exact hidle h _ j
  refine ⟨hall h, fun hrows j => ?_, fun rows _ => hidle h rows, fun j => ?_⟩
  · rw [h.sized.numRows] at hrows
    rcases Nat.exists_eq_succ_of_ne_zero (Nat.ne_of_gt hrows) with ⟨n, hn⟩
    rw [updateAssignment_eq h j, hn, List.range_eq_range', List.range'_succ]
    exact ((updateRows_cons h hover 0 _).mono fun _ _ => trivial) j
  · rw [updateAssignment_eq h j]
    exact ((updateRows_ends h hover _).mono (fun _ _ h' => hall h'.1) fun _ _ h' => hall h'.2.1) j

end Parallel

/-! ### Both engines -/

/-- Where the basis gives every variable one place, recomputing the rows that are taken
    changes the values of their owners only, the order of the rows makes no difference
    bit for bit, and neither does doing it again. In the process this holds of all
    tables. On a device it holds of all numbers once they are there, if the tables of
    the basis are those of the process, and if the sums end, which they do with
    workgroups of two items and for a single column. Rows that are too long for a word
    are not recomputed at all, in no order and however often it is tried. -/
theorem rows_commute :
    (∀ w : Workspace (Sequential Binary32) Binary32, w.Placed →
      w.engine.bounds.entries.size = w.tableau.numCols + w.tableau.maxRows →
      Sequential.recomputing.RowsCommute w) ∧
    ∀ (width : Nat) (w : Parallel.Desk) (b : Board Binary32), w.Placed →
      Parallel.Shows width w b → 2 ≤ width ∨ w.tableau.numCols = 1 →
      (ceilDiv w.tableau.numCols width * width < UInt32.size →
        Parallel.recomputing.RowsCommute w) ∧
      (UInt32.size ≤ ceilDiv w.tableau.numCols width * width → Parallel.RowsRefused w) := by
  refine ⟨fun w hw hsize => ?_, fun width w b hw hshows hends => ?_⟩
  · -- The board has the roles that the variables have.
    have hholds : Sequential.Holds w (Sequential.board w fun v =>
        (w.engine.bounds.entries[v]?).elim .basic (·.role)) :=
      Sequential.holds_board hsize fun v x hx => by rw [hx, Option.elim_some]
    exact Sequential.onBoards.rowsCommute hholds hw
  · rw [hshows.sized.numCols] at hends ⊢
    refine ⟨fun hfits => ?_, Parallel.rowsRefused hshows⟩
    have hsums := sumsEnd_eq_true hshows.stands.fits.width_pos hends
    exact (Parallel.onBoards width).rowsCommute
      ⟨hshows, sumObstacle_eq_none_iff.mpr ⟨hfits, hsums⟩⟩ hw

/-- A board of three rows, of which two are taken, and two columns. The first slack and
    the first column variable have changed places, and the first row holds what is no
    number. -/
def Board.crossed : Board Binary32 where
  maxRows := 3
  numRows := 2
  numCols := 2
  coeff := fun r _ => if r = 0 then ⟨0x7fc00000⟩ else 1
  basis := (Basis.ofDimensions 3 2).swapped 2 0
  interval := fun _ => .nonnegative
  value := fun v => if v = 2 then 1 else 0
  role := exchangedRole (Role.initial 2) 2 0
  tolerance := Config.standard.tolerance

theorem Board.matches_crossed : Board.crossed.basis.Matches 3 2 Board.crossed.role :=
  (Basis.matches_ofDimensions 3 2).swapped (by decide) (by decide) rfl rfl

/-- The two rows of that board can be recomputed in either order, in the process and on
    a device with workgroups of four items. -/
theorem rows_commute_crossed :
    (∃ w : Workspace (Sequential Binary32) Binary32, w.Placed ∧
      w.engine.bounds.entries.size = w.tableau.numCols + w.tableau.maxRows ∧
      w.tableau.numRows = 2 ∧ Sequential.recomputing.RowsCommute w) ∧
    ∃ (w : Parallel.Desk) (b : Board Binary32), w.Placed ∧ Parallel.Shows 4 w b ∧
      w.tableau.numRows = 2 ∧ Parallel.recomputing.RowsCommute w := by
  constructor
  -- Both engines are put at one board, by hand in the process and by upload on the device.
  · have hshows := Sequential.shows_ofBoard Board.crossed
    have hplaced : (Sequential.ofBoard Board.crossed).Placed :=
      ⟨Board.matches_crossed.bijective, show 2 ≤ 3 by decide⟩
    exact ⟨_, hplaced, hshows.bounds.size, rfl, rows_commute.1 _ hplaced hshows.bounds.size⟩
  · rcases Parallel.exists_shows (b := Board.crossed) (.idle ⟨4, 1⟩) Config.standard (by decide)
      (by decide) (by decide) (by decide) (by decide) (by decide) Board.matches_crossed with
      ⟨w, hgeometry, hshows⟩
    have hwidth : w.engine.handle.geometry.workgroup = 4 := by
      rw [hgeometry]
      decide +kernel
    rw [hwidth] at hshows
    have hplaced : w.Placed := by
      refine ⟨?_, ?_⟩
      · rw [hshows.basis, hshows.sized.maxRows, hshows.sized.numCols]
        exact Board.matches_crossed.bijective
      · rw [hshows.sized.numRows, hshows.sized.maxRows]
        decide
    have hfits : ceilDiv w.tableau.numCols 4 * 4 < UInt32.size := by
      rw [hshows.sized.numCols]
      decide
    exact ⟨w, _, hplaced, hshows, hshows.sized.numRows,
      (rows_commute.2 4 w _ hplaced hshows (.inl (by decide))).1 hfits⟩

end BoundedSimplex
