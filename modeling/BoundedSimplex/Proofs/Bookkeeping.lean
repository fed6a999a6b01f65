import BoundedSimplex.Proofs.Parity

/-!
# Bookkeeping

The basis is kept several times over, and all copies say the same.

There are the owners of the columns, the owners of the rows and the places of
the variables; there are the roles; one engine keeps two sets besides, the other
one has copies of the three tables on its device. Every exchange changes all of
them, by separate statements, and a session asks for some of them only. Nothing
in between would show that one was forgotten.

So the statement is about every moment between two iterations and about the end
of every session. It does not need two engines: a session on one engine next to
itself is as good as a session on two, and says at which board the solver then
stands. What is kept at that board follows from the search that led there, since
the history is the list of its exchanges.

Where an engine repeats a sum for ever there is no end of a session, and the
moments before are as good as any.

## Main definitions

* `Basis.Replays`: The tables after the exchanges of a history.
* `Solver.Boundary`: The end of a session and the moments between iterations.
* `Solver.Bookkept`: All copies that every engine has say the same.
* `Sequential.SetsMatch`, `Parallel.Mirrors`: The ones that one engine has.

## Theorems

* `Solver.Boundary.standing`: At these moments a solver stands at a board.
* `Solver.bookkept_of_standing`: The bookkeeping at a board.
* `bookkept_at_boundary`: The bookkeeping on both engines.
-/

namespace BoundedSimplex

/-! ### What is kept -/

/-- The tables after the exchanges of a history, the oldest first. Each has its position as
    its number, and when its turn comes the variable that leaves owns a row and the one that
    enters owns a column. -/
inductive Basis.Replays (b₀ : Basis) : List PivotStep → Basis → Prop where
  | start : Replays b₀ [] b₀
  | step {steps : List PivotStep} {b b' : Basis} {leaving entering row col : Nat} :
      Replays b₀ steps b → leaving ∈ b.rowVar → entering ∈ b.colVar →
      b.swap? leaving entering = some ((row, col), b') →
      Replays b₀ (steps ++ [⟨steps.length, leaving, entering⟩]) b'

/-- The owners of columns and rows are all variables, each of them once, and the third table
    is the inverse of the other two. -/
structure Basis.Bijective (b : Basis) (maxRows numCols : Nat) : Prop where
  size_colVar : b.colVar.size = numCols
  size_rowVar : b.rowVar.size = maxRows
  size_place : b.place.size = numCols + maxRows
  owners : (b.colVar.toList ++ b.rowVar.toList).Perm (List.range (numCols + maxRows))
  place_col : ∀ c v, b.colVar? c = some v → b.place? v = some c
  place_row : ∀ r v, b.rowVar? r = some v → b.place? v = some r

namespace Solver

variable {β α : Type} [Scalar α] [Engine β α]

/-- The end of a session, and the moments between the iterations of its searches. An
    operation that stops in between has no such moment, and nothing is said of the state it
    leaves. -/
inductive Boundary (ops : List (Operation α)) (t v : Traced (Solver β α)) : Prop where
  | after {answers : List (Except Error (Answer α))} : session ops t = .ok answers v →
      Boundary ops t v
  | within {n : Nat} : Visits ops t n v → Boundary ops t v

/-- The tables, the roles and the history say the same. Roles are what the engine replies
    when it is asked, so on a device this compares memory with tables of the process. -/
structure Bookkept (maxRows numCols : Nat) (u : Traced (Solver β α)) : Prop where
  tables : u.state.basis.Bijective maxRows numCols
  basic : ∀ v, HasRole u v .basic ↔ v ∈ u.state.basis.rowVar
  nonbasic : ∀ v, HasRole u v .nonbasic ↔ v ∈ u.state.basis.colVar
  history : (Basis.initial maxRows numCols).Replays u.state.history.toList u.state.basis

end Solver

/-- The two sets are the owners of the rows and of the columns. The scans go through the
    sets, so this is what makes them find every candidate. -/
structure Sequential.SetsMatch {α : Type} (w : Workspace (Sequential α) α) : Prop where
  basic : ∀ v, v ∈ w.engine.basic ↔ v ∈ w.basis.rowVar
  nonbasic : ∀ v, v ∈ w.engine.nonbasic ↔ v ∈ w.basis.colVar

/-- Once the tableau was copied the device holds the three tables, word for word. Every
    exchange sends all of them anew, so there is no question of which words have changed. -/
structure Parallel.Mirrors (w : Desk) : Prop where
  colVar : w.engine.handle.prepared = true →
    (w.engine.handle.colVar.read 0 w.engine.handle.colVar.length).Gives w.engine.device
      fun words _ => words = tableWords w.basis.colVar
  rowVar : w.engine.handle.prepared = true →
    (w.engine.handle.rowVar.read 0 w.engine.handle.rowVar.length).Gives w.engine.device
      fun words _ => words = tableWords w.basis.rowVar
  place : w.engine.handle.prepared = true →
    (w.engine.handle.place.read 0 w.engine.handle.place.length).Gives w.engine.device
      fun words _ => words = tableWords w.basis.place

/-! ### At a board -/

theorem Basis.Matches.bijective {b : Basis} {maxRows numCols : Nat} {role : Nat → Role}
    (h : b.Matches maxRows numCols role) : b.Bijective maxRows numCols where
  size_colVar := h.size_colVar
  size_rowVar := h.size_rowVar
  size_place := h.size_place
  owners := h.perm_owners
  place_col := by
    intro c v hc
    -- That there is an owner says that the column is one of the basis.
    have hlt : c < numCols := by
      rw [← h.size_colVar]
      exact (Array.getElem?_eq_some_iff.mp hc).1
    have hcol : b.inCol c = v := Option.some.inj ((h.colVar?_eq hlt).symm.trans hc)
    rw [← hcol, h.place?_eq (h.col c hlt).1, (h.col c hlt).2.1]
  place_row := by
    intro r v hr
    have hlt : r < maxRows := by
      rw [← h.size_rowVar]
      exact (Array.getElem?_eq_some_iff.mp hr).1
    have hrow : b.inRow r = v := Option.some.inj ((h.rowVar?_eq hlt).symm.trans hr)
    rw [← hrow, h.place?_eq (h.row r hlt).1, (h.row r hlt).2.1]

/-- And the other way round: where every variable owns one place, there are roles to
    which the tables belong. -/
theorem Basis.Bijective.exists_matches {b : Basis} {maxRows numCols : Nat}
    (h : b.Bijective maxRows numCols) : ∃ role, b.Matches maxRows numCols role := by
  have hcol : ∀ c < numCols, b.colVar? c = some (b.inCol c) := by
    intro c hc
    rw [← h.size_colVar] at hc
    simp only [inCol, colVar?, Array.getElem?_eq_getElem hc, Option.getD_some]
  have hrow : ∀ r < maxRows, b.rowVar? r = some (b.inRow r) := by
    intro r hr
    rw [← h.size_rowVar] at hr
    simp only [inRow, rowVar?, Array.getElem?_eq_getElem hr, Option.getD_some]
  have hplace : ∀ {v i : Nat}, b.place? v = some i → b.placeOf v = i := by
    intro v i hv
    rw [placeOf, hv, Option.getD_some]
  have howner : ∀ {v}, v ∈ b.colVar ∨ v ∈ b.rowVar ↔ v < numCols + maxRows := by
    intro v
    rw [← List.mem_range, ← h.owners.mem_iff, List.mem_append, Array.mem_toList_iff,
      Array.mem_toList_iff]
  -- A variable that owns a row owns no column.
  have hnodup := List.nodup_append.mp (h.owners.nodup_iff.mpr List.nodup_range)
  have hapart : ∀ v ∈ b.colVar, v ∉ b.rowVar := fun v hc hr =>
    hnodup.2.2 v (Array.mem_toList_iff.mpr hc) v (Array.mem_toList_iff.mpr hr) rfl
  refine ⟨fun v => if v ∈ b.rowVar then .basic else .nonbasic, h.size_colVar, h.size_rowVar,
    h.size_place, fun c hc => ?_, fun r hr => ?_, fun v hv hrole => ?_, fun v hv hrole => ?_⟩
  · have hmem : b.inCol c ∈ b.colVar := Array.mem_iff_getElem?.mpr ⟨c, hcol c hc⟩
    exact ⟨howner.mp (.inl hmem), hplace (h.place_col c _ (hcol c hc)), if_neg (hapart _ hmem)⟩
  · have hmem : b.inRow r ∈ b.rowVar := Array.mem_iff_getElem?.mpr ⟨r, hrow r hr⟩
    exact ⟨howner.mp (.inr hmem), hplace (h.place_row r _ (hrow r hr)), if_pos hmem⟩
  · have hmem : v ∈ b.colVar := by
      refine (howner.mpr hv).resolve_right fun hmem => ?_
      rw [if_pos hmem] at hrole
      cases hrole
    rcases Array.mem_iff_getElem?.mp hmem with ⟨c, hc⟩
    have hlt : c < numCols := by
      rw [← h.size_colVar]
      exact (Array.getElem?_eq_some_iff.mp hc).1
    rw [hplace (h.place_col c v hc)]
    exact ⟨hlt, Option.some.inj ((hcol c hlt).symm.trans hc)⟩
  · have hmem : v ∈ b.rowVar := by
      by_contra hnot
      rw [if_neg hnot] at hrole
      cases hrole
    rcases Array.mem_iff_getElem?.mp hmem with ⟨r, hr⟩
    have hlt : r < maxRows := by
      rw [← h.size_rowVar]
      exact (Array.getElem?_eq_some_iff.mp hr).1
    rw [hplace (h.place_row r v hr)]
    exact ⟨hlt, Option.some.inj ((hrow r hlt).symm.trans hr)⟩

/-- The tables of a board are those at first after the exchanges that led
    there. -/
theorem Board.Run.replays {α : Type} [Scalar α] [StrictScalar α] {sum : Summation α}
    {b₀ b : Board α} {l : List (Nat × Nat)} (h : Board.Run sum b₀ l b) (hv : b₀.Valid) :
    b₀.basis.Replays (Solver.stepsOf l).toList b.basis := by
  -- Induction on the exchanges: each is between the owner of a row and the owner of a column, at
  -- the place in the history that its number says.
  induction h with
  | start => exact .start
  | @step l b b' leaving entering hrun hnext ih =>
      rcases Board.next_eq_exchange_iff.mp hnext with ⟨hex, rfl⟩
      have hb := (hrun.valid hv).basis
      have hleaving := hb.mem_rowVar_iff.mpr ⟨hex.leaving_lt, hex.leaving_basic⟩
      have hentering := hb.mem_colVar_iff.mpr ⟨hex.entering_lt, hex.entering_nonbasic⟩
      have hswap := hb.swap?_eq hex.leaving_lt hex.entering_lt hex.leaving_basic
        hex.entering_nonbasic
      have hlength : (Solver.stepsOf l).toList.length = l.length := List.length_mapIdx
      rw [Solver.stepsOf_append, Array.toList_push, ← hlength]
      exact ih.step hleaving hentering hswap

namespace Solver

section Standing

variable {β α : Type} [Engine β α] {t u v : Traced (Solver β α)}

theorem Reaches.phase_eq {n : Nat} (h : Reaches t n v) : t.state.phase = .building := by
  induction h with
  | start hphase _ => exact hphase
  | next _ _ ih => exact ih

/-- A solver reports the roles of the variables it has. -/
theorem hasRole_iff_of_reports {Show : Workspace β α → Board α → Prop} {b : Board α} {x : Nat}
    {r : Role} (hR : Engine.Reports Show) (h : Show u.state.workspace b) :
    HasRole u x r ↔ x < b.numVars ∧ b.role x = r := by
  have hreplies : (role x : Exec (Solver β α) Role).Replies u.state
      ((Error.checkIndex x b.numVars).map fun _ => b.role x) fun _ => True := by
    unfold role onEngine onWorkspace Workspace.onEngine
    exact Exec.Replies.focus (Exec.Replies.focus ((hR.role _ b x h).mono fun _ _ => trivial))
  unfold Error.checkIndex at hreplies
  -- A variable that does not exist has no role.
  by_cases hx : x < b.numVars
  · rw [if_pos hx] at hreplies
    rcases hreplies u.journal with ⟨_, s, j, hrun, rfl, -⟩
    rw [HasRole, show role x u = _ from hrun, Exec.value?, Option.some.injEq]
    exact ⟨fun heq => ⟨hx, heq⟩, fun heq => heq.2⟩
  · rw [if_neg hx] at hreplies
    rcases hreplies u.journal with ⟨s, j, hrun, -⟩
    rw [HasRole, show role x u = _ from hrun, Exec.value?]
    exact ⟨fun heq => (by cases heq), fun heq => absurd heq.1 hx⟩

variable [Scalar α] {R : Engine.Reading β α} {maxRows numCols : Nat} {c : Config α}
  {ops : List (Operation α)}

/-- A solver stands at a board of a search, or at the one its search will begin with. The
    history tells the exchanges that led from the problem to this board, and this is what
    keeps the two in step. -/
inductive Standing (R : Engine.Reading β α) (maxRows numCols : Nat) (c : Config α)
    (s : Solver β α) : Prop where
  | board {p : Problem α} {l : List (Nat × Nat)} {b : Board α} : p.HasSize maxRows numCols →
      Board.Run R.sum (p.board c.tolerance) l b →
      (R.Ready s.workspace b ∨ R.Shows s.workspace b) → s.history = stepsOf l →
      Standing R maxRows numCols c s

/-- A solver next to itself is at the stage of two. -/
theorem Stage.standing {s : Solver β α} (h : Stage R R maxRows numCols c s s) :
    Standing R maxRows numCols c s := by
  cases h with
  | building hp _ _ hhistory htwins =>
      refine .board hp .start (.inl htwins.left) ?_
      exact htwins.histories.1.trans hhistory
  | finished hp _ hsearched =>
      rcases hsearched with ⟨hrun, htwins, -, hhistory⟩
      refine .board hp hrun (.inr htwins.left) ?_
      exact htwins.histories.1.trans hhistory

/-- Wherever a solver stands it can be asked, and what it tells is the board. -/
theorem Standing.reports {s : Solver β α} (h : Standing R maxRows numCols c s) :
    ∃ (Show : Workspace β α → Board α → Prop) (p : Problem α) (l : List (Nat × Nat)) (b : Board α),
      Engine.Reports Show ∧ Show s.workspace b ∧ p.HasSize maxRows numCols ∧
      Board.Run R.sum (p.board c.tolerance) l b ∧ s.history = stepsOf l := by
  rcases h with ⟨hp, hrun, hready | hshows, hhistory⟩
  · exact ⟨R.Ready, _, _, _, R.reportsReady, hready, hp, hrun, hhistory⟩
  · exact ⟨R.Shows, _, _, _, R.reportsShows, hshows, hp, hrun, hhistory⟩

/-- One engine adds up a row in one way. -/
theorem sumsMatchAt_self (w : Workspace β α) : SumsMatchAt R R w :=
  fun _ _ _ _ _ => rfl

variable [StrictScalar α]

/-- A session ends at a stage, and nothing failed on the way; or it was cut off, by a search
    that had used up its fuel or by an engine that cannot add up its rows. This is a session
    compared with itself. -/
theorem session_stage (ops : List (Operation α))
    (h : Stage R R maxRows numCols c t.state t.state) :
    (∃ e, Exec.outcome (session ops t) = .error e ∧ Cut R numCols e) ∨
      ∃ answers u, session ops t = .ok answers u ∧
        List.Forall₂ (Regular c.maxIterations) ops answers ∧
        Stage R R maxRows numCols c u.state u.state := by
  -- The session is compared with itself, since the lemma about two engines says what the answers
  -- can be and where they leave the solver.
  have halike := session_alike rfl ops h fun _ _ _ => sumsMatchAt_self _
  generalize session ops t = x at halike ⊢
  cases x with
  | ok answers u =>
      cases halike with
      | ok hs => exact .inr ⟨answers, u, rfl, hs⟩
  | error e u =>
      cases halike with
      | error hcut => exact .inl ⟨e, rfl, hcut⟩

/-- Between two iterations of a session the solver stands at a board. -/
theorem Visits.standing {n : Nat} (hvisit : Visits ops t n v)
    (h : Stage R R maxRows numCols c t.state t.state) : Standing R maxRows numCols c v.state := by
  induction hvisit with
  | @here fuel n rest t v _ hreach =>
      have hphase := hreach.phase_eq
      cases h with
      | building hp _ _ hhistory htwins =>
          have hempty : t.state.history = #[] :=
            htwins.histories.1.trans hhistory
          -- A search that is still going on began with an empty history, so what was recorded are
          -- the exchanges of its own run.
          rcases hreach.at_board R.follows (Problem.valid_board hp.rows _) htwins.left with
            ⟨l, b, hrun, -, hat⟩
          refine .board hp hrun (.inr hat.shows_board) (hat.history.trans ?_)
          rw [hempty, Array.empty_append]
      | finished _ hne hsearched =>
          rcases hsearched with ⟨-, htwins, -, -⟩
          exact absurd (htwins.phases.1.symm.trans hphase) hne
  | @later o rest a n t u v hanswer _ ih =>
      have halike := answer_alike rfl h o fun _ _ _ _ _ _ => sumsMatchAt_self _
      rw [hanswer] at halike
      cases halike with
      | ok hs => exact ih hs.2

/-- At the end of a session and between its iterations the solver stands at a board.
    Sessions and searches are followed separately, and this brings the two together. -/
theorem Boundary.standing (hb : Boundary ops t v)
    (h : Stage R R maxRows numCols c t.state t.state) : Standing R maxRows numCols c v.state := by
  cases hb with
  | within hvisit => exact hvisit.standing h
  | after hrun =>
      rcases session_stage ops h with ⟨e, hcut, -⟩ | ⟨answers, u, hok, -, hstage⟩
      · rw [hrun] at hcut
        cases hcut
      · rw [hrun] at hok
        cases hok
        exact hstage.standing

/-- The bookkeeping at a board. It is where facts about boards are read back as facts about
    the tables of an engine. -/
theorem bookkept_of_standing (hsize : maxRows + numCols < UInt32.size)
    (h : Standing R maxRows numCols c u.state) : Bookkept maxRows numCols u := by
  rcases h.reports with ⟨Show, p, l, b, hR, hshow, hp, hrun, hhistory⟩
  have hv := Problem.valid_board hp.rows c.tolerance
  have hb := (hrun.valid hv).basis
  have hbasis : u.state.basis = b.basis := hR.basis _ _ hshow
  have hinitial : (p.board c.tolerance).basis = Basis.initial maxRows numCols := by
    rw [Basis.initial_eq_ofDimensions (by omega) (by omega), ← hp.maxRows, ← hp.numCols]
    rfl
  -- The tables, the owners of rows and of columns, and the history, all read off the board.
  refine ⟨?_, fun x => ?_, fun x => ?_, ?_⟩
  · rw [hbasis, ← hp.maxRows, ← hp.numCols]
    have hmatches := hb.bijective
    rw [hrun.same.maxRows, hrun.same.numCols] at hmatches
    exact hmatches
  · rw [hasRole_iff_of_reports hR hshow, hbasis, hb.mem_rowVar_iff]
    exact Iff.rfl
  · rw [hasRole_iff_of_reports hR hshow, hbasis, hb.mem_colVar_iff]
    exact Iff.rfl
  · rw [hhistory, hbasis, ← hinitial]
    exact hrun.replays hv

end Standing

end Solver

/-! ### What one engine keeps -/

/-- The sets of the engine in the process. -/
theorem Sequential.setsMatch_of_standing {α : Type} [Scalar α] [StrictScalar α]
    {maxRows numCols : Nat} {c : Config α} {s : Solver (Sequential α) α}
    (h : Solver.Standing reading maxRows numCols c s) : SetsMatch s.workspace := by
  cases h with
  | @board p l b hp hrun hshow _ =>
      have hb := (hrun.valid (Problem.valid_board hp.rows c.tolerance)).basis
      -- This engine has nothing to make ready.
      have hshows : Shows s.workspace b := hshow.elim id id
      constructor
      · intro v
        rw [hshows.basis, hb.mem_rowVar_iff, hshows.basic, decide_eq_true_eq]
        exact Iff.rfl
      · intro v
        rw [hshows.basis, hb.mem_colVar_iff, hshows.nonbasic, decide_eq_true_eq]
        exact Iff.rfl

namespace Parallel

/-- A buffer that holds a table is read back as the words of the table. -/
theorem reads_table {p : Parallel} {d : Device} {a : Wiring} {c : Contents} (hs : p.Sees d a c)
    (s : Slot) {table : Array Nat} (hlength : (p.slot s).length = table.size)
    (hheld : ∀ i < table.size, (c s).index? i = table[i]?) :
    ((p.slot s).read 0 (p.slot s).length).Gives d fun words _ => words = tableWords table := by
  refine (hs.read_gives s (by rw [Nat.zero_add])).mono ?_
  rintro _ d' ⟨rfl, -⟩
  have hsize := hs.length s
  refine Array.ext_getElem? fun i => ?_
  simp only [tableWords, Array.getElem?_map, Array.getElem?_extract, Nat.zero_add, Nat.sub_zero,
    Nat.min_eq_left hsize]
  -- Beyond the table nothing is asked of the words, and nothing is read.
  by_cases hi : i < table.size
  · have hindex := hheld i hi
    rw [Array.getElem?_eq_getElem hi] at hindex
    rcases Words.index?_eq_some hindex with ⟨w, hw, hword⟩
    rw [hlength, if_pos hi, Array.getElem?_eq_getElem hi, hw, ← hword]
    simp only [Option.map_some, Nat.toUInt32_eq, UInt32.ofNat_toNat]
  · rw [hlength, if_neg hi, Array.getElem?_eq_none (Nat.le_of_not_lt hi)]
    rfl

/-- The tables on the device. -/
theorem mirrors_of_standing {width maxRows numCols : Nat} {c : Config Binary32}
    {s : Solver (Attached Parallel) Binary32}
    (h : Solver.Standing (reading width) maxRows numCols c s) : Mirrors s.workspace := by
  rcases h with ⟨hp, hrun, hready | hshows, -⟩
  -- Before the tableau was copied nothing is promised of the device.
  · have hnot : s.workspace.engine.handle.prepared ≠ true := by
      rw [hready.prepared]
      exact Bool.false_ne_true
    exact ⟨fun hprepared => absurd hprepared hnot, fun hprepared => absurd hprepared hnot,
      fun hprepared => absurd hprepared hnot⟩
  · have hb := (hrun.valid (Problem.valid_board hp.rows c.tolerance)).basis
    have hlength := hshows.stands.fits.elements
    rcases hshows.stands.holds with ⟨a, k, hs, -, hk⟩
    rw [← hshows.basis] at hb
    have htables := hk.tables
    refine ⟨fun _ => ?_, fun _ => ?_, fun _ => ?_⟩
    · refine reads_table hs .colVar ((hlength .colVar).trans hb.size_colVar.symm) fun i hi => ?_
      rw [hb.size_colVar] at hi
      rw [htables.colVar i hi, ← hshows.basis]
      exact (hb.colVar?_eq hi).symm
    · refine reads_table hs .rowVar ((hlength .rowVar).trans hb.size_rowVar.symm) fun i hi => ?_
      rw [hb.size_rowVar] at hi
      rw [htables.rowVar i hi, ← hshows.basis]
      exact (hb.rowVar?_eq hi).symm
    · refine reads_table hs .place ((hlength .place).trans ?_) fun i hi => ?_
      · rw [hb.size_place]
        exact Nat.add_comm _ _
      · rw [hb.size_place] at hi
        rw [htables.place i hi, ← hshows.basis]
        exact (hb.place?_eq hi).symm

end Parallel

/-! ### Both engines -/

section Made

variable {maxRows numCols : Nat} {config : Config Binary32}

/-- A solver that was just made in the process. -/
def Sequential.Made (maxRows numCols : Nat) (config : Config Binary32)
    (t : Traced (Solver (Sequential Binary32) Binary32)) : Prop :=
  ∃ (x : Traced Unit) (s : Solver (Sequential Binary32) Binary32) (u : Traced Unit) (j : Journal),
    Solver.sequential maxRows numCols config x = .ok s u ∧ t = ⟨s, j⟩

/-- A solver that was just made on a host device. -/
def Parallel.Made (maxRows numCols : Nat) (config : Config Binary32)
    (t : Traced (Solver (Attached Parallel) Binary32)) : Prop :=
  ∃ (host : HostDevice) (j : Journal) (s : Solver Parallel Binary32) (u : Traced Device)
    (j' : Journal), Solver.parallel maxRows numCols config ⟨.toHost host, j⟩ = .ok s u ∧
      t = ⟨s.attach u.state, j'⟩

theorem Sequential.stage_of_made {t : Traced (Solver (Sequential Binary32) Binary32)}
    (h : Made maxRows numCols config t) : maxRows + numCols < UInt32.size ∧
      Solver.Stage reading reading maxRows numCols config t.state t.state := by
  rcases h with ⟨x, s, u, j, hmake, rfl⟩
  rcases Solver.fresh_of_sequential hmake with ⟨hinput, rfl⟩
  have hsize := (Solver.checkDimensions_eq_ok (Solver.checkInput_eq_ok hinput).1).2.2
  exact ⟨hsize, Solver.stage_fresh rfl rfl (describes_fresh hsize) (describes_fresh hsize)⟩

/-- The sums of a solver that was just made are by workgroups of the width that
    the device and the caller allow. -/
theorem Parallel.stage_of_parallel {host : HostDevice} {j : Journal}
    {s : Solver Parallel Binary32} {u : Traced Device}
    (h : Solver.parallel maxRows numCols config ⟨.toHost host, j⟩ = .ok s u) :
    maxRows + numCols < UInt32.size ∧
      Solver.Stage (reading (Geometry.ofDevice host.info config.maxWorkgroupSize).workgroup)
        (reading (Geometry.ofDevice host.info config.maxWorkgroupSize).workgroup) maxRows numCols
        config (s.attach u.state) (s.attach u.state) := by
  rcases fresh_of_parallel h with ⟨hinput, -, hdesc, engine, rfl⟩
  have hsize := (Solver.checkDimensions_eq_ok (Solver.checkInput_eq_ok hinput).1).2.2
  exact ⟨hsize, Solver.stage_fresh rfl rfl hdesc hdesc⟩

theorem Parallel.stage_of_made {t : Traced (Solver (Attached Parallel) Binary32)}
    (h : Made maxRows numCols config t) : maxRows + numCols < UInt32.size ∧
      ∃ width, Solver.Stage (reading width) (reading width) maxRows numCols config t.state
        t.state := by
  rcases h with ⟨host, j, s, u, j', hmake, rfl⟩
  rcases stage_of_parallel hmake with ⟨hsize, hstage⟩
  exact ⟨hsize, _, hstage⟩

/-- The bookkeeping on both engines, at the end of every session and between all
    iterations of its searches. -/
theorem bookkept_at_boundary (maxRows numCols : Nat) (config : Config Binary32)
    (ops : List (Operation Binary32)) :
    (∀ t v, Sequential.Made maxRows numCols config t → Solver.Boundary ops t v →
      Solver.Bookkept maxRows numCols v ∧ Sequential.SetsMatch v.state.workspace) ∧
    ∀ t v, Parallel.Made maxRows numCols config t → Solver.Boundary ops t v →
      Solver.Bookkept maxRows numCols v ∧ Parallel.Mirrors v.state.workspace := by
  constructor
  · intro t v hmade hboundary
    rcases Sequential.stage_of_made hmade with ⟨hsize, hstage⟩
    have hstanding := hboundary.standing hstage
    exact ⟨Solver.bookkept_of_standing hsize hstanding,
      Sequential.setsMatch_of_standing hstanding⟩
  · intro t v hmade hboundary
    rcases Parallel.stage_of_made hmade with ⟨hsize, width, hstage⟩
    have hstanding := hboundary.standing hstage
    exact ⟨Solver.bookkept_of_standing hsize hstanding, Parallel.mirrors_of_standing hstanding⟩

end Made

/-- The session with one exchange, on both engines: slack two left the basis and
    variable zero entered it. -/
theorem bookkept_at_boundary_raising :
    (∃ t v, Sequential.Made 1 2 Config.standard t ∧ Solver.Boundary raisingSession t v ∧
      v.state.history = #[⟨0, 2, 0⟩] ∧ Solver.Bookkept 1 2 v ∧
      Sequential.SetsMatch v.state.workspace) ∧
    ∃ t v, Parallel.Made 1 2 Config.standard t ∧ Solver.Boundary raisingSession t v ∧
      v.state.history = #[⟨0, 2, 0⟩] ∧ v.state.workspace.engine.handle.prepared = true ∧
      Solver.Bookkept 1 2 v ∧ Parallel.Mirrors v.state.workspace := by
  constructor
  -- The session is evaluated for its history, and the rest is the theorem at its end.
  · have hrun : Exec.endsWith (Solver.sequential 1 2 Config.standard (⟨(), #[]⟩ : Traced Unit))
        (fun s _ => Exec.endsWith (Solver.session raisingSession ⟨s, #[]⟩)
          fun _ v => decide (v.state.history = #[⟨0, 2, 0⟩])) = true := by decide +kernel
    rcases Exec.exists_of_endsWith hrun with ⟨s, u, hmake, hrest⟩
    rcases Exec.exists_of_endsWith hrest with ⟨answers, v, hsession, hhistory⟩
    have hmade : Sequential.Made 1 2 Config.standard ⟨s, #[]⟩ := ⟨_, s, u, #[], hmake, rfl⟩
    have hkept := (bookkept_at_boundary 1 2 Config.standard raisingSession).1 _ v hmade
      (.after hsession)
    exact ⟨_, v, hmade, .after hsession, of_decide_eq_true hhistory, hkept⟩
  · have hrun : Exec.endsWith (Solver.parallel 1 2 Config.standard ⟨.toHost (.idle ⟨4, 1⟩), #[]⟩)
        (fun s u => Exec.endsWith (Solver.session raisingSession ⟨s.attach u.state, #[]⟩)
          fun _ v => decide (v.state.history = #[⟨0, 2, 0⟩] ∧
            v.state.workspace.engine.handle.prepared = true)) = true := by decide +kernel
    rcases Exec.exists_of_endsWith hrun with ⟨s, u, hmake, hrest⟩
    rcases Exec.exists_of_endsWith hrest with ⟨answers, v, hsession, htest⟩
    rcases of_decide_eq_true htest with ⟨hhistory, hprepared⟩
    have hmade : Parallel.Made 1 2 Config.standard ⟨s.attach u.state, #[]⟩ :=
      ⟨_, _, s, u, #[], hmake, rfl⟩
    have hkept := (bookkept_at_boundary 1 2 Config.standard raisingSession).2 _ v hmade
      (.after hsession)
    exact ⟨_, v, hmade, .after hsession, hhistory, hprepared, hkept⟩

end BoundedSimplex
