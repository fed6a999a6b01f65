import BoundedSimplex.Proofs.Orders

/-!
# The Lowest Variable

What the scans of a device find, what they cost, and what they change.

A scan is cut into chunks, and one word of output tells a launch what the launches
before it have found. The chunks cover the variables without a gap and do not
overlap, also where the number of variables is a multiple of their length; the
output is overwritten before the first launch, so that nothing is left in it from
the scan before; and the scan stops after the first chunk that has lowered it. So
what it finds is the lowest variable of all, and the number of launches tells in
which chunk that one lies.

This holds in every state that an engine can come into. A scan for a broken
variable changes the output only. A scan for a variable that suits a broken one
also changes the values of the two, if there is one, and it leaves there bit for bit
what the same correction leaves in a table of the process.

## Main definitions

* `Lowest`: What a search for the lowest number with a property finds.
* `Parallel.FindsBroken`, `Parallel.FindsSuitable`: What the scans find, what they
  cost, and what they change.

## Theorems

* `Parallel.Shows.checkBounds_finds`, `Parallel.Shows.findSuitable_finds`: The scans
  of an engine that stands at a board.
* `Parallel.scans_find_lowest`: The scans of an engine in any state it can come into.
* `Parallel.not_single_launch`: A hit can take two launches in one chunk, and with too
  many units there is no engine.
-/

namespace BoundedSimplex

/-- The result is the lowest number that satisfies `P`, if there is one. So the result is
    determined by `P`. -/
def Lowest (P : Nat → Prop) : Option Nat → Prop
  | some v => P v ∧ ∀ u < v, ¬ P u
  | none => ∀ v, ¬ P v

theorem lowest_find? {n : Nat} {q : Nat → Bool} {P : Nat → Prop}
    (h : ∀ v, P v ↔ v < n ∧ q v = true) : Lowest P ((List.range n).find? q) := by
  -- Over an ascending range the first hit is the lowest one.
  cases hfind : (List.range n).find? q with
  | none =>
      intro v hv
      rcases (h v).mp hv with ⟨hlt, hq⟩
      have hnone := List.find?_range_eq_none.mp hfind v hlt
      rw [hq] at hnone
      cases hnone
  | some v =>
      rcases List.find?_range_eq_some.mp hfind with ⟨hq, hmem, hbelow⟩
      refine ⟨(h v).mpr ⟨List.mem_range.mp hmem, hq⟩, fun u hu hP => ?_⟩
      have hnot := hbelow u hu
      rw [((h u).mp hP).2] at hnot
      cases hnot

theorem Lowest.eq_some {P : Nat → Prop} {r : Option Nat} {v : Nat} (h : Lowest P r) (hv : P v)
    (hbelow : ∀ u < v, ¬ P u) : r = some v := by
  cases r with
  | none => exact absurd hv (h v)
  | some u =>
      rcases Nat.lt_trichotomy u v with hlt | rfl | hlt
      · exact absurd h.1 (hbelow u hlt)
      · rfl
      · exact absurd hv (h.2 v hlt)

namespace Parallel

/-- The scan for a broken variable has found `r`. Besides what it found, this says what it
    cost and what it left alone. -/
structure FindsBroken (chunk : Nat) (b : Board Binary32) (w : Desk) (r : Option Nat) (w' : Desk) :
    Prop where
  /-- It is the lowest basic variable that is broken. -/
  lowest : Lowest (fun v => HasRole w .basic v ∧ b.isBroken v = true) r
  /-- There was one launch for each chunk up to that variable, or for every chunk. -/
  launched : w'.engine.device.launched
    = List.replicate (chunksUntil chunk b.numVars r) Entry.checkBounds.name
      ++ w.engine.device.launched
  /-- Nothing but the output was written. -/
  words : ∀ s i, s ≠ .output → word? w' s i = word? w s i

/-- The scan for a variable that suits the variable `broken` has found `r`. Unlike the other
    scan it has an effect, as the kernel that completes it carries out the correction. -/
structure FindsSuitable (chunk : Nat) (b : Board Binary32) (broken : Nat) (w : Desk)
    (r : Option Nat) (w' : Desk) : Prop where
  /-- It is the lowest nonbasic variable that suits. -/
  lowest : Lowest (fun v => HasRole w .nonbasic v ∧ b.suits broken v = true) r
  /-- There was one launch for each chunk, as in the other scan, and one more if a
      variable was found. -/
  launched : w'.engine.device.launched
    = (r.map fun _ => Entry.findSuitableComplete.name).toList
      ++ List.replicate (chunksUntil chunk b.numVars r) Entry.findSuitable.name
      ++ w.engine.device.launched
  /-- Nothing but the output and the values were written. -/
  words : ∀ s i, s ≠ .output → s ≠ .values → word? w' s i = word? w s i
  /-- No value has changed if no variable was found, and otherwise those of the two
      variables alone. -/
  values : ∀ u, (r ≠ none → u ≠ broken ∧ r ≠ some u) → word? w' .values u = word? w .values u
  /-- The values are those that the correction leaves in a table of the process. -/
  corrected : ∀ v, r = some v → ∀ t : Bounds.Table Binary32, t.Shows b →
    ((Correction.ofBroken (b.interval broken) (b.value broken)).apply v broken
      (b.cross broken v) : Exec (Bounds.Table Binary32) Unit).Gives t fun _ t' =>
        ∀ u < b.numVars, word? w' .values u = (t'.entries[u]?).map (·.value.bits)

section Scans

variable {width : Nat} {w : Desk} {b : Board Binary32}

theorem Shows.checkBounds_finds (h : Shows width w b) :
    (Engine.checkBounds : Exec Desk (Option Nat)).Gives w
      (FindsBroken w.engine.handle.geometry.chunk b w) := by
  refine (onDevice_gives (checkBounds_gives h.stands)).mono ?_
  rintro r _ ⟨d', ⟨rfl, -, hscanned⟩, rfl⟩
  constructor
  case lowest =>
    refine lowest_find? fun v => ?_
    rw [h.hasRole_iff, Bool.and_eq_true, decide_eq_true_eq, and_assoc]
  case launched =>
    rw [← h.stands.fits.numVars]
    exact hscanned.launched
  case words => exact fun s i hs => congrArg (·.bind (·[i]?)) (hscanned.words s hs)

theorem Shows.findSuitable_finds (h : Shows width w b) (hv : b.Valid) {broken : Nat}
    (hbroken : HasRole w .basic broken) :
    (Engine.findSuitable broken : Exec Desk (Option Nat)).Gives w
      (FindsSuitable w.engine.handle.geometry.chunk b broken w) := by
  rcases h.hasRole_iff.mp hbroken with ⟨hl, hbasic⟩
  refine (h.findSuitable_gives hv hl hbasic).mono ?_
  rintro r w' ⟨hr, hshows, hhandle, hsuited⟩
  have hword : ∀ s i, word? w' s i
      = (w'.engine.device.host.memory.words? (w.engine.handle.slot s).id).bind (·[i]?) := by
    intro s i
    rw [word?, hhandle]
  constructor
  case lowest =>
    rw [hr]
    refine lowest_find? fun v => ?_
    rw [h.hasRole_iff, Bool.and_eq_true, decide_eq_true_eq, and_assoc]
  case launched =>
    rw [← h.stands.fits.numVars]
    exact hsuited.launched
  case words =>
    exact fun s i hout hval => (hword s i).trans
      (congrArg (·.bind (·[i]?)) (hsuited.words s hout hval))
  case values => exact fun u hu => (hword .values u).trans (hsuited.values u hu)
  case corrected =>
    intro v hrv t ht
    rw [hrv] at hr hshows
    rcases Board.firstSuitable_eq_some hr.symm with ⟨he, hen, -⟩
    have hne : broken ≠ v := by
      rintro rfl
      rw [hbasic] at hen
      cases hen
    -- The device and the table both end up with the values of one board.
    refine (ht.apply_gives hl he hne).mono fun _ t' ht' u hu => ?_
    rw [ht'.entry u hu, Option.map_some]
    exact hshows.word?_value hu

end Scans

/-- Whatever happened to an engine since it was made, on whatever device: once it is
    prepared, its scans find the lowest variable, with one launch for each chunk up
    to that variable, or for every chunk if there is none. If a variable suits the
    broken one, one launch more corrects the values of the two as they are corrected
    in the process, and no other value changes. The chunk fits a word, since otherwise
    no engine would have been made. -/
theorem scans_find_lowest {host : HostDevice} {config : Config Binary32} {maxRows numCols : Nat}
    {w : Desk} (h : Reached host config maxRows numCols w)
    (hprepared : w.engine.handle.prepared = true) :
    let g := Geometry.ofDevice host.info config.maxWorkgroupSize
    g.chunk < UInt32.size ∧ (∃ b : Board Binary32, b.Valid ∧ Shows g.workgroup w b) ∧
    ∀ b : Board Binary32, b.Valid → Shows g.workgroup w b → b.numVars = numCols + maxRows ∧
      (Engine.checkBounds : Exec Desk (Option Nat)).Gives w (FindsBroken g.chunk b w) ∧
      ∀ broken, HasRole w .basic broken →
        (Engine.findSuitable broken : Exec Desk (Option Nat)).Gives w
          (FindsSuitable g.chunk b broken w) := by
  rcases h.handle with ⟨hgeometry, hnumVars⟩
  -- A prepared engine is one that shows a board: before that, the tableau is not on the device.
  have hboard : ∃ b : Board Binary32, b.Valid ∧
      Shows (Geometry.ofDevice host.info config.maxWorkgroupSize).workgroup w b := by
    rcases h.standing with ⟨b, hv, hready | hshows⟩
    · exact absurd (hready.prepared.symm.trans hprepared) Bool.false_ne_true
    · exact ⟨b, hv, hshows⟩
  refine ⟨h.chunk_lt, hboard, fun b hv hshows => ⟨?_, ?_, fun broken hbroken => ?_⟩⟩
  · rw [← hshows.stands.fits.numVars]
    exact hnumVars
  · rw [← hgeometry]
    exact hshows.checkBounds_finds
  · rw [← hgeometry]
    exact hshows.findSuitable_finds hv hbroken

/-- A row of two columns whose slack has to be at least one. -/
def slackCalls : List (BuildCall Binary32) :=
  [.constraint #[1, 1], .bounds 2 (.both ⟨some 1, none⟩)]

/-- The board of that row. -/
def slackBoard : Board Binary32 := (Problem.ofCalls 1 2 slackCalls).board Config.standard.tolerance

theorem valid_slackBoard : slackBoard.Valid :=
  Problem.valid_board (by decide) Config.standard.tolerance

/-- It can be prepared for on a device that looks at two variables at a time. -/
theorem exists_slack : ∃ w, Reached (.idle ⟨1, 2⟩) Config.standard 1 2 w ∧ Shows 1 w slackBoard :=
  Reached.exists_prepared (by decide) (by decide) (by decide) slackCalls

/-- The first column is the lowest one that suits the slack. -/
theorem FindsSuitable.eq_some_slack {w w' : Desk} {r : Option Nat} (hshows : Shows 1 w slackBoard)
    (h : FindsSuitable 2 slackBoard 2 w r w') : r = some 0 :=
  h.lowest.eq_some ⟨hshows.hasRole_iff.mpr (by decide), by decide⟩
    fun u hu => absurd hu (Nat.not_lt_zero u)

/-- On that device the slack lies in the second chunk, and the first column takes it to
    its bound. -/
theorem scans_find_lowest_second_chunk : ∃ w : Desk,
    Reached (.idle ⟨1, 2⟩) Config.standard 1 2 w ∧
    (Engine.checkBounds : Exec Desk (Option Nat)).Gives w (fun r w' => r = some 2 ∧
      w'.engine.device.launched = ["check_bounds", "check_bounds"] ++ w.engine.device.launched) ∧
    (Engine.findSuitable 2 : Exec Desk (Option Nat)).Gives w fun r w' => r = some 0 ∧
      word? w' .values 0 = some (1 : Binary32).bits ∧
      word? w' .values 1 = word? w .values 1 := by
  rcases exists_slack with ⟨w, h, hshows⟩
  rcases scans_find_lowest h hshows.stands.prepared with ⟨-, -, hscans⟩
  rcases hscans slackBoard valid_slackBoard hshows with ⟨-, hcheck, hfind⟩
  have hslack : HasRole w .basic 2 := hshows.hasRole_iff.mpr (by decide)
  refine ⟨w, h, hcheck.mono ?_, (hfind 2 hslack).mono ?_⟩
  · intro r w' hfinds
    -- The first chunk has the two columns, which are nonbasic, so the scan goes on to the second
    -- one.
    have hr : r = some 2 := by
      refine hfinds.lowest.eq_some ⟨hslack, by decide⟩ fun u hu hP => ?_
      have hrole : Role.initial 2 u = .basic := (hshows.hasRole_iff.mp hP.1).2
      rw [Role.initial, if_pos hu] at hrole
      cases hrole
    refine ⟨hr, hfinds.launched.trans ?_⟩
    rw [hr]
    rfl
  · intro r w' hfinds
    have hr : r = some 0 := hfinds.eq_some_slack hshows
    -- The values to compare with are those of the correction in the process on the same board.
    have htable := (Sequential.shows_ofBoard slackBoard).bounds
    rcases hfinds.corrected 0 hr _ htable #[] with ⟨_, t, j', hrun, hbits⟩
    have ht := (htable.apply_gives (show 2 < slackBoard.numVars by decide)
      (show 0 < slackBoard.numVars by decide) (by decide)).result hrun
    refine ⟨hr, ?_, hfinds.values 1 ?_⟩
    · rw [hbits 0 (by decide), ht.entry 0 (by decide)]
      decide
    · rw [hr]
      decide

/-- To find the first column, which lies in the first chunk, takes two launches there,
    since the values are corrected by one of their own. And with so many units that a
    chunk does not fit a word there is no engine that could scan. -/
theorem not_single_launch :
    (∃ w : Desk, Reached (.idle ⟨1, 2⟩) Config.standard 1 2 w ∧
      w.engine.handle.prepared = true ∧ w.engine.handle.geometry.chunk = 2 ∧
      (Engine.findSuitable 2 : Exec Desk (Option Nat)).Gives w fun r w' => r = some 0 ∧
        w'.engine.device.launched.length ≠ w.engine.device.launched.length + (0 / 2 + 1)) ∧
    ∀ (maxRows numCols : Nat) (w : Desk),
      ¬ Reached (.idle ⟨256, 2 ^ 24⟩) Config.standard maxRows numCols w := by
  constructor
  · rcases exists_slack with ⟨w, h, hshows⟩
    have hchunk : w.engine.handle.geometry.chunk = 2 := by
      rw [h.handle.1]
      decide
    have hslack : HasRole w .basic 2 := hshows.hasRole_iff.mpr (by decide)
    refine ⟨w, h, hshows.stands.prepared, hchunk, ?_⟩
    refine (hshows.findSuitable_finds valid_slackBoard hslack).mono fun r w' hfinds => ?_
    rw [hchunk] at hfinds
    have hr : r = some 0 := hfinds.eq_some_slack hshows
    have hlaunched := congrArg List.length hfinds.launched
    rw [hr] at hlaunched
    -- One launch finds the column and a second one corrects the values.
    simp only [Option.map_some, Option.toList_some, chunksUntil, List.length_append,
      List.length_replicate, List.length_singleton] at hlaunched
    exact ⟨hr, by omega⟩
  · intro maxRows numCols w h
    have hchunk := h.chunk_lt
    exact absurd hchunk (by decide)

end Parallel

end BoundedSimplex
